import Mathlib.Data.List.DropRight
import Stencil.Scope

/-!
# The log of the scopes

What scopes answer can be read off the log of the moves that led to them. A region from a push to
the move that closes the pushed scope leaves nothing visible in scopes; in the log without such
regions, the last definition of a name made with a scope open is what is visible of it in scopes,
and the pushes are the open scopes. Global definitions count wherever they stand.
-/

namespace Stencil

inductive ScopeMove
  | push (kind : ScopeKind) (name : String)
  | pop
  | define (name : String) (b : Binding)
  | defineGlobal (name : String) (b : Binding)
  | popAll
  | clear

namespace ScopeMove

def isPush : ScopeMove → Bool
  | push _ _ => true
  | _ => false

def isClear : ScopeMove → Bool
  | clear => true
  | _ => false

/-- How many scopes are open after a move, when so many were open before it. -/
def depth (n : Nat) : ScopeMove → Nat
  | push _ _ => n + 1
  | pop => n - 1
  | popAll | clear => 0
  | define _ _ | defineGlobal _ _ => n

end ScopeMove

namespace Scopes

def perform (s : Scopes) : ScopeMove → Scopes
  | .push kind name => s.push kind name
  | .pop => s.pop
  | .define name b => s.define name b
  | .defineGlobal name b => s.defineGlobal name b
  | .popAll => s.popAll
  | .clear => .empty

def after (s : Scopes) (ms : List ScopeMove) : Scopes := ms.foldl perform s

end Scopes

/-- A move, and whether a scope was open when it was made. -/
structure LogEntry where
  move : ScopeMove
  inScope : Bool

namespace ScopeLog

/-- The log of moves of which the first is made when so many scopes are open. -/
def ofMoves : Nat → List ScopeMove → List LogEntry
  | _, [] => []
  | n, m :: ms => ⟨m, 0 < n⟩ :: ofMoves (m.depth n) ms

def sinceClear (l : List LogEntry) : List LogEntry := l.rtakeWhile (!·.move.isClear)

/-- What follows the move that closes a scope in which so many others are open, if one does. -/
def afterClosing? : Nat → List LogEntry → Option (List LogEntry)
  | _, [] => none
  | n, e :: l =>
    match e.move with
    | .push _ _ => afterClosing? (n + 1) l
    | .pop => if n = 0 then some l else afterClosing? (n - 1) l
    | .popAll => some l
    | .define _ _ | .defineGlobal _ _ | .clear => afterClosing? n l

theorem length_of_afterClosing? {n : Nat} {l rest : List LogEntry}
    (h : afterClosing? n l = some rest) : rest.length < l.length := by
  induction l generalizing n with
  | nil => cases h
  | cons e l ih =>
    rw [afterClosing?] at h
    rw [List.length_cons]
    split at h
    · exact Nat.lt_succ_of_lt (ih h)
    · split at h
      · cases h
        exact Nat.lt_succ_self _
      · exact Nat.lt_succ_of_lt (ih h)
    · cases h
      exact Nat.lt_succ_self _
    all_goals exact Nat.lt_succ_of_lt (ih h)

/-- The log without the regions from a push to the move that closes its scope. -/
def remaining : List LogEntry → List LogEntry
  | [] => []
  | e :: l =>
    if e.move.isPush then
      match hr : afterClosing? 0 l with
      | some rest =>
        have := length_of_afterClosing? hr
        remaining rest
      | none => e :: remaining l
    else e :: remaining l
termination_by l => l.length

/-- What a definition of the name in a scope binds it to. -/
def scopeDefinition? (x : String) (e : LogEntry) : Option Binding :=
  match e.move, e.inScope with
  | .define name b, true => if x = name then some b else none
  | _, _ => none

/-- What a definition of the name outside all scopes, or a global one, binds it to. -/
def globalDefinition? (x : String) (e : LogEntry) : Option Binding :=
  match e.move, e.inScope with
  | .define name b, false | .defineGlobal name b, _ => if x = name then some b else none
  | _, _ => none

def last (f : LogEntry → Option Binding) (l : List LogEntry) : Option Binding :=
  (l.filterMap f).getLast?

/-! ## Logs one after the other -/

@[simp] theorem last_nil (f : LogEntry → Option Binding) : last f [] = none := rfl

theorem last_cons (f : LogEntry → Option Binding) (e : LogEntry) (l : List LogEntry) :
    last f (e :: l) = (last f l).or (f e) := by
  unfold last
  rw [List.filterMap_cons]
  cases hf : f e with
  | none => rw [Option.or_none]
  | some b =>
    simp only [List.getLast?_cons]
    cases (l.filterMap f).getLast? <;> rfl

@[simp] theorem remaining_nil : remaining [] = [] := by rw [remaining]

theorem remaining_cons_of_not_push {e : LogEntry} (h : e.move.isPush = false) (l : List LogEntry) :
    remaining (e :: l) = e :: remaining l := by
  rw [remaining, if_neg (by rw [h]; exact Bool.false_ne_true)]

theorem remaining_cons_of_open {e : LogEntry} (h : e.move.isPush = true) {l : List LogEntry}
    (hl : afterClosing? 0 l = none) : remaining (e :: l) = e :: remaining l := by
  rw [remaining, if_pos h]
  split
  · rename_i rest hr
    rw [hl] at hr
    cases hr
  · rfl

theorem remaining_cons_of_closed {e : LogEntry} (h : e.move.isPush = true) {l rest : List LogEntry}
    (hl : afterClosing? 0 l = some rest) : remaining (e :: l) = remaining rest := by
  rw [remaining, if_pos h]
  split
  · rename_i rest' hr
    rw [hl] at hr
    cases hr
    rfl
  · rename_i hr
    rw [hl] at hr
    cases hr

end ScopeLog

namespace Scopes

open ScopeLog

variable {s : Scopes} {x : String}

@[simp] theorem after_cons (m : ScopeMove) (ms : List ScopeMove) :
    s.after (m :: ms) = (s.perform m).after ms := rfl

theorem after_append (ms ms' : List ScopeMove) : s.after (ms ++ ms') = (s.after ms).after ms' :=
  List.foldl_append

theorem depth_perform (s : Scopes) (m : ScopeMove) : (s.perform m).depth = m.depth s.depth := by
  cases m with
  | define name b => exact depth_define s name b
  | pop => exact depth_pop s
  | _ => rfl

theorem ofMoves_cons (s : Scopes) (m : ScopeMove) (ms : List ScopeMove) :
    ofMoves s.depth (m :: ms) = ⟨m, 0 < s.depth⟩ :: ofMoves (s.perform m).depth ms := by
  rw [ofMoves, depth_perform]

theorem ofMoves_append (s : Scopes) (ms ms' : List ScopeMove) :
    ofMoves s.depth (ms ++ ms') = ofMoves s.depth ms ++ ofMoves (s.after ms).depth ms' := by
  induction ms generalizing s with
  | nil => rfl
  | cons m ms ih => rw [List.cons_append, ofMoves_cons, ofMoves_cons, ih]; rfl

/-! ## One move -/

theorem get?_set_or (t : Table Binding) (name : String) (b : Binding) (x : String) :
    (t.set name b).get? x = (if x = name then some b else none).or (t.get? x) := by
  rw [Table.get?_set]
  split <;> rfl

theorem scopeValue?_define (s : Scopes) (name : String) (b : Binding) (x : String) :
    (s.define name b).scopeValue? x =
      (scopeDefinition? x ⟨.define name b, 0 < s.depth⟩).or (s.scopeValue? x) := by
  cases hs : s.stack with
  | nil => simp [define, hs, defineGlobal, scopeValue?, scopeDefinition?, depth]
  | cons scope outer =>
    have hd : decide (0 < s.depth) = true := by simp [depth, hs]
    simp only [define, hs, scopeValue?, scopeDefinition?, hd, List.findSome?_cons, get?_set_or]
    by_cases hx : x = name <;> simp [hx]

/-- A move that closes no scope only adds the binding that it makes. -/
theorem scopeValue?_perform {m : ScopeMove} (hc : m.isClear = false)
    (hs : s.stack = [] ∨ m ≠ .pop ∧ m ≠ .popAll) (x : String) :
    (s.perform m).scopeValue? x =
      (scopeDefinition? x ⟨m, 0 < s.depth⟩).or (s.scopeValue? x) := by
  cases m with
  | define name b => exact scopeValue?_define s name b x
  | push kind name => rfl
  | defineGlobal name b => rfl
  | clear => cases hc
  | pop =>
    have h : s.stack = [] := hs.resolve_right fun h => h.1 rfl
    simp [perform, pop, scopeValue?, h, scopeDefinition?]
  | popAll =>
    have h : s.stack = [] := hs.resolve_right fun h => h.2 rfl
    simp [perform, popAll, scopeValue?, h, scopeDefinition?]

theorem stack_perform_of_nil {m : ScopeMove} (hp : m.isPush = false) (hs : s.stack = []) :
    (s.perform m).stack = [] := by
  cases m with
  | push kind name => cases hp
  | define name b => rw [perform, define, hs]; exact hs
  | defineGlobal name b => exact hs
  | pop => rw [perform, pop, hs]; rfl
  | popAll | clear => rfl

theorem globalValue?_perform {m : ScopeMove} (hc : m.isClear = false) (x : String) :
    (s.perform m).globalValue? x =
      (globalDefinition? x ⟨m, 0 < s.depth⟩).or (s.globalValue? x) := by
  cases m with
  | define name b =>
    cases hs : s.stack with
    | nil =>
      have hd : decide (0 < s.depth) = false := by simp [depth, hs]
      simp only [perform, define, hs, globalDefinition?, hd]
      exact get?_set_or s.globals name b x
    | cons scope outer =>
      have hd : decide (0 < s.depth) = true := by simp [depth, hs]
      simp only [perform, define, hs, globalDefinition?, hd]
      rfl
  | defineGlobal name b => exact get?_set_or s.globals name b x
  | clear => cases hc
  | _ => rfl

/-! ## A region -/

theorem afterClosing?_ofMoves_cons (s : Scopes) (m : ScopeMove) (ms : List ScopeMove) (n : Nat) :
    afterClosing? n (ofMoves s.depth (m :: ms)) =
      match m with
      | .push _ _ => afterClosing? (n + 1) (ofMoves (s.perform m).depth ms)
      | .pop =>
        if n = 0 then some (ofMoves (s.perform m).depth ms)
        else afterClosing? (n - 1) (ofMoves (s.perform m).depth ms)
      | .popAll => some (ofMoves (s.perform m).depth ms)
      | _ => afterClosing? n (ofMoves (s.perform m).depth ms) := by
  rw [ofMoves_cons, afterClosing?]
  cases m <;> rfl

/-- The first moves close what lies above the lower scopes, or all scopes, and the log goes on from
there. In the first case a scope further down is closed by what follows, and in the second it was
closed as well. -/
def Closes (s : Scopes) (lower : List Scope) (n : Nat) (ms : List ScopeMove)
    (rest : List LogEntry) : Prop :=
  ∃ region ms', ms = region ++ ms' ∧ ms'.length < ms.length ∧
    rest = ofMoves (s.after region).depth ms' ∧
    ((s.after region).stack = lower ∧
        (∀ k, afterClosing? (n + (k + 1)) (ofMoves s.depth ms) = afterClosing? k rest) ∨
      (s.after region).stack = [] ∧ ∀ k, afterClosing? (n + k) (ofMoves s.depth ms) = some rest)

/-- A move that does not close the scope leaves it to the later ones. -/
theorem Closes.later {m : ScopeMove} {ms : List ScopeMove} {lower : List Scope} {n n' : Nat}
    {rest : List LogEntry}
    (he : ∀ k, afterClosing? (n + k) (ofMoves s.depth (m :: ms)) =
      afterClosing? (n' + k) (ofMoves (s.perform m).depth ms))
    (h : Closes (s.perform m) lower n' ms rest) : Closes s lower n (m :: ms) rest := by
  obtain ⟨region, ms', rfl, hl, hr, hend⟩ := h
  refine ⟨m :: region, ms', rfl, Nat.lt_succ_of_lt hl, hr, hend.imp ?_ ?_⟩
  · rintro ⟨hst, hk⟩
    exact ⟨hst, fun k => (he (k + 1)).trans (hk k)⟩
  · rintro ⟨hst, hk⟩
    exact ⟨hst, fun k => (he k).trans (hk k)⟩

theorem closes_of_afterClosing? {ms : List ScopeMove} (hc : ∀ m ∈ ms, m.isClear = false)
    {upper lower : List Scope} (hs : s.stack = upper ++ lower) {n : Nat} (hn : upper.length = n + 1)
    {rest : List LogEntry} (h : afterClosing? n (ofMoves s.depth ms) = some rest) :
    Closes s lower n ms rest := by
  induction ms generalizing s upper n with
  | nil => cases h
  | cons m ms ih =>
    have hms : ∀ m' ∈ ms, m'.isClear = false := fun m' hm => hc m' (List.mem_cons_of_mem _ hm)
    have hlog := afterClosing?_ofMoves_cons s m ms
    cases m with
    | push kind name =>
      have hs' : (s.push kind name).stack = (⟨kind, name, .empty⟩ :: upper) ++ lower := by
        rw [push, hs, List.cons_append]
      have hn' : (⟨kind, name, .empty⟩ :: upper : List Scope).length = n + 1 + 1 := by
        rw [List.length_cons, hn]
      refine .later (fun k => ?_) (ih hms hs' hn' ((hlog n).symm.trans h))
      rw [hlog, Nat.add_right_comm]
    | pop =>
      obtain ⟨top, upper, rfl⟩ := List.exists_cons_of_length_eq_add_one hn
      have hs' : s.pop.stack = upper ++ lower := by rw [pop, hs]; rfl
      rw [List.length_cons, Nat.add_left_inj] at hn
      cases n with
      | zero =>
        obtain rfl : upper = [] := List.length_eq_zero_iff.1 hn
        rw [hlog] at h
        cases h
        refine ⟨[.pop], ms, rfl, Nat.lt_succ_self _, rfl, .inl ⟨hs', fun k => ?_⟩⟩
        have hk : 0 + (k + 1) - 1 = k := by omega
        rw [hlog, if_neg (by omega), hk]
      | succ n =>
        refine .later (fun k => ?_) (ih hms hs' hn ((hlog (n + 1)).symm.trans h))
        have hk : n + 1 + k - 1 = n + k := by omega
        rw [hlog, if_neg (by omega), hk]
    | popAll =>
      rw [hlog] at h
      cases h
      exact ⟨[.popAll], ms, rfl, Nat.lt_succ_self _, rfl, .inr ⟨rfl, fun k => hlog _⟩⟩
    | define name b =>
      obtain ⟨top, upper, rfl⟩ := List.exists_cons_of_length_eq_add_one hn
      have hs' : (s.define name b).stack =
          ({ top with bindings := top.bindings.set name b } :: upper) ++ lower := by
        rw [define, hs]; rfl
      exact .later (fun k => hlog _) (ih hms hs' hn ((hlog n).symm.trans h))
    | defineGlobal name b =>
      have hs' : (s.defineGlobal name b).stack = upper ++ lower := hs
      exact .later (fun k => hlog _) (ih hms hs' hn ((hlog n).symm.trans h))
    | clear => cases hc .clear List.mem_cons_self

/-- The region of a scope that is pushed and closed again leaves the stack as it was, unless it
closes scopes that were open before. -/
theorem exists_region {kind : ScopeKind} {name : String} {ms : List ScopeMove}
    (hc : ∀ m ∈ ms, m.isClear = false)
    (hs : s.stack = [] ∨ afterClosing? 0 (ofMoves s.depth (.push kind name :: ms)) = none)
    {rest : List LogEntry}
    (h : afterClosing? 0 (ofMoves (s.push kind name).depth ms) = some rest) :
    ∃ region ms', ms = region ++ ms' ∧ ms'.length < ms.length ∧ rest = ofMoves s.depth ms' ∧
      ((s.push kind name).after region).stack = s.stack ∧
      (s.stack = [] ∨ afterClosing? 0 rest = none) := by
  have hpush : (s.push kind name).stack = [⟨kind, name, .empty⟩] ++ s.stack := rfl
  obtain ⟨region, ms', rfl, hl, hr, hend⟩ := closes_of_afterClosing? hc hpush rfl h
  have hstack : ((s.push kind name).after region).stack = s.stack ∧
      (s.stack = [] ∨ afterClosing? 0 rest = none) := by
    rcases hend with ⟨hst, hk⟩ | ⟨hst, hk⟩
    · exact ⟨hst, hs.imp_right fun hn => (hk 0).symm.trans hn⟩
    · -- Closing all scopes would close those of the beginning too.
      rcases hs with hs | hn
      · exact ⟨hst.trans hs.symm, .inl hs⟩
      · exact absurd ((hk 1).symm.trans hn) (Option.some_ne_none _)
  refine ⟨region, ms', rfl, hl, ?_, hstack⟩
  rw [hr, Scopes.depth, hstack.1]
  rfl

/-! ## Any moves -/

/-- Against the scopes at first, the last definition in the remaining log is what is visible of the
name, and the pushes that remain are the scopes that are open in addition. -/
structure Reads (s s' : Scopes) (l : List LogEntry) (x : String) : Prop where
  visible : s'.scopeValue? x = (last (scopeDefinition? x) l).or (s.scopeValue? x)
  depth : s'.depth = s.depth + l.countP (·.move.isPush)

theorem Reads.cons_plain {m : ScopeMove} (hc : m.isClear = false) (hp : m.isPush = false)
    (hs : s.stack = [] ∨ m ≠ .pop ∧ m ≠ .popAll) {s' : Scopes} {l : List LogEntry}
    (h : Reads (s.perform m) s' l x) : Reads s s' (⟨m, 0 < s.depth⟩ :: l) x where
  visible := by rw [h.visible, scopeValue?_perform hc hs, last_cons, Option.or_assoc]
  depth := by
    have hd : m.depth s.depth = s.depth := by
      cases m with
      | push kind name => cases hp
      | clear => cases hc
      | pop => rw [Scopes.depth, hs.resolve_right fun h => h.1 rfl]; rfl
      | popAll => rw [Scopes.depth, hs.resolve_right fun h => h.2 rfl]; rfl
      | _ => rfl
    rw [h.depth, depth_perform, hd, List.countP_cons_of_neg (by simp [hp])]

theorem Reads.cons_push {kind : ScopeKind} {name : String} {s' : Scopes} {l : List LogEntry}
    (h : Reads (s.push kind name) s' l x) :
    Reads s s' (⟨.push kind name, 0 < s.depth⟩ :: l) x where
  visible := by rw [h.visible, last_cons, Option.or_assoc]; rfl
  depth := by
    rw [h.depth, depth_push, List.countP_cons_of_pos rfl]
    omega

theorem Reads.of_stack_eq {s₁ s' : Scopes} {l : List LogEntry} (h : Reads s₁ s' l x)
    (hs : s₁.stack = s.stack) : Reads s s' l x where
  visible := by rw [h.visible, scopeValue?, hs]; rfl
  depth := by rw [h.depth, Scopes.depth, hs]; rfl

/-- The remaining log is read off as long as no scope that was open at first is closed. -/
theorem reads_after {s : Scopes} {ms : List ScopeMove} (hc : ∀ m ∈ ms, m.isClear = false)
    (hs : s.stack = [] ∨ afterClosing? 0 (ofMoves s.depth ms) = none) (x : String) :
    Reads s (s.after ms) (remaining (ofMoves s.depth ms)) x := by
  match ms with
  | [] =>
    rw [ofMoves, remaining_nil]
    exact ⟨rfl, rfl⟩
  | m :: ms =>
    have hms : ∀ m' ∈ ms, m'.isClear = false := fun m' hm => hc m' (List.mem_cons_of_mem _ hm)
    cases hp : m.isPush with
    | true =>
      obtain ⟨kind, name, rfl⟩ : ∃ kind name, m = .push kind name := by
        cases m with
        | push kind name => exact ⟨kind, name, rfl⟩
        | _ => cases hp
      rw [ofMoves_cons]
      cases hr : afterClosing? 0 (ofMoves (s.perform (.push kind name)).depth ms) with
      | none =>
        rw [remaining_cons_of_open rfl hr]
        exact (reads_after hms (.inr hr) x).cons_push
      | some rest =>
        rw [remaining_cons_of_closed rfl hr]
        obtain ⟨region, ms', rfl, hl, rfl, hst, hs'⟩ := exists_region hms hs hr
        have hd : ((s.push kind name).after region).depth = s.depth := congrArg List.length hst
        have hrest : ∀ m' ∈ ms', m'.isClear = false := fun m' hm => hms m' (List.mem_append_right _ hm)
        rw [← hd] at hs' ⊢
        rw [← hst] at hs'
        rw [after_cons, perform, after_append]
        exact (reads_after hrest hs' x).of_stack_eq hst
    | false =>
      rw [ofMoves_cons] at hs ⊢
      rw [remaining_cons_of_not_push hp]
      have hopen : s.stack = [] ∨ m ≠ .pop ∧ m ≠ .popAll := by
        refine hs.imp_right fun hn => ⟨?_, ?_⟩ <;> rintro rfl <;> cases hn
      have hs' : (s.perform m).stack = [] ∨
          afterClosing? 0 (ofMoves (s.perform m).depth ms) = none := by
        refine hs.imp (stack_perform_of_nil hp) fun hn => ?_
        cases m with
        | push kind name => cases hp
        | pop | popAll => cases hn
        | _ => exact hn
      exact (reads_after hms hs' x).cons_plain (hc m List.mem_cons_self) hp hopen
termination_by ms.length
decreasing_by
  all_goals simp only [List.length_cons]; omega

/-- Where each move adds what its entry says and none takes anything away, the last that was added is
what is there. -/
theorem after_eq_last (view : Scopes → Option Binding) {f : LogEntry → Option Binding}
    (hv : ∀ (s : Scopes) (m : ScopeMove), m.isClear = false →
      view (s.perform m) = (f ⟨m, 0 < s.depth⟩).or (view s))
    {ms : List ScopeMove} (hc : ∀ m ∈ ms, m.isClear = false) (s : Scopes) :
    view (s.after ms) = (last f (ofMoves s.depth ms)).or (view s) := by
  induction ms generalizing s with
  | nil => rfl
  | cons m ms ih =>
    have hms : ∀ m' ∈ ms, m'.isClear = false := fun m' hm => hc m' (List.mem_cons_of_mem _ hm)
    rw [after_cons, ih hms, hv s m (hc m List.mem_cons_self), ofMoves_cons, last_cons,
      Option.or_assoc]

theorem globalValue?_after {s : Scopes} {ms : List ScopeMove} (hc : ∀ m ∈ ms, m.isClear = false)
    (x : String) :
    (s.after ms).globalValue? x =
      (last (globalDefinition? x) (ofMoves s.depth ms)).or (s.globalValue? x) :=
  after_eq_last (fun s => s.globalValue? x) (fun _ _ hm => globalValue?_perform hm x) hc s

/-- The moves since all was last cleared lead to the same scopes. -/
theorem exists_sinceClear (ms : List ScopeMove) :
    ∃ ms', (∀ m ∈ ms', m.isClear = false) ∧ sinceClear (ofMoves 0 ms) = ofMoves 0 ms' ∧
      empty.after ms = empty.after ms' := by
  induction ms using List.reverseRecOn with
  | nil => exact ⟨[], fun _ h => absurd h List.not_mem_nil, rfl, rfl⟩
  | append_singleton ms m ih =>
    obtain ⟨ms', hc, hlog, hs⟩ := ih
    rw [← depth_empty, ofMoves_append, depth_empty, after_append, hs, sinceClear]
    cases hm : m.isClear with
    | true =>
      refine ⟨[], fun _ h => absurd h List.not_mem_nil, ?_, ?_⟩
      · exact List.rtakeWhile_concat_neg _ _ _ (by simp [hm])
      · cases m with
        | clear => rfl
        | _ => cases hm
    | false =>
      refine ⟨ms' ++ [m], fun m' h => ?_, ?_, (after_append ms' [m]).symm⟩
      · rcases List.mem_append.1 h with h | h
        · exact hc m' h
        · rw [List.mem_singleton.1 h, hm]
      · rw [← depth_empty, ofMoves_append, depth_empty, ← hlog]
        exact List.rtakeWhile_concat_pos _ _ _ (by simp [hm])

/-- What new scopes show after any moves is read off their log: what is visible in scopes and the
depth from the log since the last clear without its closed regions, what is global from all of it. -/
theorem lookups_eq_log (ms : List ScopeMove) (x : String) :
    let s := empty.after ms
    let log := sinceClear (ofMoves 0 ms)
    s.scopeValue? x = last (scopeDefinition? x) (remaining log) ∧
      s.globalValue? x = last (globalDefinition? x) log ∧
      s.value? x = (last (scopeDefinition? x) (remaining log)).or (last (globalDefinition? x) log) ∧
      s.depth = (remaining log).countP (·.move.isPush) := by
  intro s log
  obtain ⟨ms', hc, hlog, hs⟩ := exists_sinceClear ms
  have hread : Reads empty s (remaining log) x := by
    rw [show s = empty.after ms' from hs, show log = ofMoves empty.depth ms' from hlog]
    exact reads_after hc (.inl rfl) x
  have hscope : s.scopeValue? x = last (scopeDefinition? x) (remaining log) :=
    hread.visible.trans Option.or_none
  have hglobal : s.globalValue? x = last (globalDefinition? x) log := by
    rw [show s = empty.after ms' from hs, show log = ofMoves empty.depth ms' from hlog,
      globalValue?_after hc]
    exact Option.or_none
  refine ⟨hscope, hglobal, ?_, ?_⟩
  · rw [value?, hscope, hglobal]
  · rw [hread.depth, depth_empty, Nat.zero_add]

end Scopes

end Stencil
