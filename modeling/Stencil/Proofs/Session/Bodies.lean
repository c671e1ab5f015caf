import Mathlib.Data.List.Infix
import Stencil.Proofs.Session.Fields

/-!
# Bodies

A loop, a macro and an escape open a scope on top of those that were open before. As long as its body
leaves that scope open, every move works above the old scopes or on the globals it names; closing what
lies above gives the old scopes back.
-/

namespace Stencil

namespace Scopes

/-- The scopes of `base` are open, and at least one inside them. -/
def Over (base s : Scopes) : Prop := ∃ upper, upper ≠ [] ∧ s.stack = upper ++ base.stack

variable {base s : Scopes}

theorem over_push (s : Scopes) (kind : ScopeKind) (name : String) : s.Over (s.push kind name) :=
  ⟨[⟨kind, name, .empty⟩], List.cons_ne_nil _ _, rfl⟩

namespace Over

theorem push (h : base.Over s) (kind : ScopeKind) (name : String) : base.Over (s.push kind name) := by
  obtain ⟨upper, -, hs⟩ := h
  refine ⟨⟨kind, name, .empty⟩ :: upper, List.cons_ne_nil _ _, ?_⟩
  rw [Scopes.push, hs, List.cons_append]

theorem unwindTo (h : base.Over s) {depth : Nat} (hd : base.depth < (s.unwindTo depth).depth) :
    base.Over (s.unwindTo depth) := by
  obtain ⟨upper, -, hs⟩ := h
  have hlen : s.stack.length = upper.length + base.stack.length := by
    rw [hs, List.length_append]
  -- One of the upper scopes stays, so none of the others is closed.
  rw [depth_unwindTo] at hd
  unfold Scopes.depth at hd
  have hn : s.stack.length - depth < upper.length := by omega
  refine ⟨upper.drop (s.stack.length - depth), ?_, ?_⟩
  · intro he
    have := List.drop_eq_nil_iff.1 he
    omega
  · rw [Scopes.unwindTo]
    simp only
    rw [← List.drop_append_of_le_length hn.le, ← hs]

/-- A name is bound in one of the upper scopes, never globally. -/
theorem define (h : base.Over s) (name : String) (b : Binding) :
    base.Over (s.define name b) ∧ (s.define name b).globals = s.globals := by
  obtain ⟨upper, hne, hs⟩ := h
  obtain ⟨inner, rest, rfl⟩ := List.exists_cons_of_ne_nil hne
  rw [List.cons_append] at hs
  rw [Scopes.define, hs]
  refine ⟨⟨{ inner with bindings := inner.bindings.set name b } :: rest, ?_, rfl⟩, rfl⟩
  exact List.cons_ne_nil _ _

theorem stack_unwindTo (h : base.Over s) : (s.unwindTo base.depth).stack = base.stack := by
  obtain ⟨upper, -, hs⟩ := h
  have hlen : s.stack.length - base.depth = upper.length := by
    rw [hs, List.length_append, Scopes.depth, Nat.add_sub_cancel]
  rw [Scopes.unwindTo]
  simp only
  rw [hlen, hs, List.drop_left]

end Over

end Scopes

namespace Session

variable {g : Graph} {s inner : Session} {c : Catalog} {base : Scopes} {body : List Step}

/-! ## Moves above the old scopes -/

theorem over_perform (h : base.Over s.scopes) {m : Move}
    (hd : base.depth < (s.perform m).scopes.depth) : base.Over (s.perform m).scopes := by
  cases m with
  | push kind name => exact h.push kind name
  | close depth => exact h.unwindTo hd
  | define name b => exact (h.define name b).1
  | edit e =>
    have he : (s.perform (.edit e)).scopes = s.scopes := scopes_edit s e
    exact he ▸ h
  | reset => exact absurd hd (Nat.not_lt_zero _)
  | record _ | defineGlobal _ _ | check => exact h

theorem globalValue?_perform (h : base.Over s.scopes) {m : Move}
    (hd : base.depth < (s.perform m).scopes.depth) {n : String} (hm : ∀ b, m ≠ .defineGlobal n b) :
    (s.perform m).scopes.globalValue? n = s.scopes.globalValue? n := by
  cases m with
  | define name b =>
    unfold Scopes.globalValue?
    rw [perform, define, (h.define name b).2]
  | defineGlobal name b =>
    have hne : n ≠ name := fun e => hm b (e ▸ rfl)
    rw [perform, defineGlobal, Scopes.globalValue?, Scopes.defineGlobal, Table.get?_set, if_neg hne]
    rfl
  | edit e => exact congrArg (·.globalValue? n) (scopes_edit s e)
  | reset => exact absurd hd (Nat.not_lt_zero _)
  | record _ | push _ _ | close _ | check => rfl

theorem over_after (h : base.Over s.scopes) {ms : List Move}
    (hd : ∀ ms', ms' <+: ms → base.depth < (s.after ms').scopes.depth) :
    base.Over (s.after ms).scopes ∧
      ∀ n, (∀ b, .defineGlobal n b ∉ ms) →
        (s.after ms).scopes.globalValue? n = s.scopes.globalValue? n := by
  induction ms generalizing s with
  | nil => exact ⟨h, fun _ _ => rfl⟩
  | cons m ms ih =>
    have hd' : base.depth < (s.perform m).scopes.depth := hd [m] ⟨ms, rfl⟩
    have hds : ∀ ms', ms' <+: ms → base.depth < ((s.perform m).after ms').scopes.depth :=
      fun ms' hms => hd (m :: ms') (List.cons_prefix_cons.2 ⟨rfl, hms⟩)
    obtain ⟨ho, hg⟩ := ih (over_perform h hd') hds
    refine ⟨ho, fun n hn => ?_⟩
    have hm : ∀ b, m ≠ .defineGlobal n b := fun b e => hn b (e ▸ List.mem_cons_self)
    have hms : ∀ b, .defineGlobal n b ∉ ms := fun b hb => hn b (List.mem_cons_of_mem _ hb)
    exact (hg n hms).trans (globalValue?_perform h hd' hm)

/-! ## Entering a body -/

/-- The session when the body of a step starts, and the body. -/
def entered? (s : Session) : Step → Option (Session × List Step)
  | .list item list body => some (s.enterList item list, body)
  | .macroBody name parameters body => some (s.enterMacro name parameters, body)
  | .escape text name body => some (s.enterEscape text name, body)
  | _ => none

theorem defineAll_keeps {P : Scopes → Prop} (hP : ∀ s name b, P s → P (s.define name b))
    (h : P s.scopes) (f : String → Binding) (names : List String) :
    P (names.foldl (fun s n => s.define n (f n)) s).scopes := by
  induction names generalizing s with
  | nil => exact h
  | cons n names ih => exact ih (s := s.define n (f n)) (hP s.scopes n (f n) h)

theorem over_defineAll (h : base.Over s.scopes) (f : String → Binding) (names : List String) :
    let s' := names.foldl (fun s n => s.define n (f n)) s
    base.Over s'.scopes ∧ s'.scopes.globals = s.scopes.globals := by
  refine defineAll_keeps (P := fun scopes => base.Over scopes ∧ scopes.globals = s.scopes.globals)
    (fun _ name b hs => ?_) ⟨h, rfl⟩ f names
  obtain ⟨ho, hg⟩ := hs.1.define name b
  exact ⟨ho, hg.trans hs.2⟩

theorem entered?_spec {x : Step} (h : s.entered? x = some (inner, body)) :
    s.scopes.Over inner.scopes ∧ inner.scopes.globals = s.scopes.globals ∧
      (s.step g c x).2.1 = (inner.after (inner.moves body)).unwindTo s.scopes.depth := by
  cases x with
  | list item list body =>
    cases h
    have ho := s.scopes.over_push .listItem list
    refine ⟨(ho.define ..).1, (ho.define ..).2, ?_⟩
    simp only [step, (run_spec ..).1]
  | macroBody name parameters body =>
    cases h
    have ho : s.scopes.Over (s.push .macroBody name).scopes := s.scopes.over_push .macroBody name
    obtain ⟨ho', hg⟩ := over_defineAll ho (fun _ => .marker objectType) parameters
    refine ⟨ho', hg, ?_⟩
    simp only [step, (run_spec ..).1]
  | escape text name body =>
    cases h
    have ho := s.scopes.over_push .escape text
    have hr : (s.recordExpression text).scopes = s.scopes := scopes_recordAll s (s.mentions text)
    have he : (s.enterEscape text name).scopes =
        (s.scopes.push .escape text).define name (.marker objectType) := by
      show ((s.recordExpression text).scopes.push .escape text).define name _ = _
      rw [hr]
    rw [he]
    refine ⟨(ho.define ..).1, (ho.define ..).2, ?_⟩
    simp only [step, (run_spec ..).1]
  | _ => cases h

/-! ## After a body -/

/-- A loop, a macro or an escape whose body never closes the scope that was opened for it leaves what
names are bound to in scopes, and the globals that the body does not define. -/
theorem bindings_kept {x : Step} (h : s.entered? x = some (inner, body))
    (hd : ∀ ms, ms <+: inner.moves body → s.scopes.depth < (inner.after ms).scopes.depth) :
    let after := (s.step g c x).2.1
    (∀ n, after.scopes.scopeValue? n = s.scopes.scopeValue? n ∧
      after.scopes.isInScope n = s.scopes.isInScope n) ∧
    ∀ n, (∀ b, .defineGlobal n b ∉ inner.moves body) →
      after.scopes.globalValue? n = s.scopes.globalValue? n := by
  intro after
  obtain ⟨ho, hglob, hstep⟩ := entered?_spec (g := g) (c := c) h
  obtain ⟨ho', hkept⟩ := over_after ho hd
  have hafter : after.scopes = (inner.after (inner.moves body)).scopes.unwindTo s.scopes.depth :=
    congrArg scopes hstep
  have hstack : after.scopes.stack = s.scopes.stack := by
    rw [hafter]
    exact ho'.stack_unwindTo
  refine ⟨fun n => ⟨?_, ?_⟩, fun n hn => ?_⟩
  · rw [Scopes.scopeValue?, hstack]
    rfl
  · rw [Scopes.isInScope, hstack]
    rfl
  · rw [hafter]
    refine (hkept n hn).trans ?_
    rw [Scopes.globalValue?, hglob]
    rfl

theorem bindings_kept_shadowed :
    let s := ((start ⟨[]⟩ (Globals.source .empty) .standard (.build .standard 0)).1.push .unknown
      "page").define "x" (.value .null)
    let body : List Step := [.push .unknown "left open", .define "x" (.marker "T"),
      .list "y" "x" [.push .escape "x"], .defineGlobal "g" (.marker "T")]
    let after := (s.step ⟨[]⟩ (.build .standard 0) (.macroBody "m" ["x"] body)).2.1
    after.scopes.scopeValue? "x" = some (.value .null) ∧ after.scopes.isInScope "y" = false ∧
      after.scopes.globalValue? "h" = none := by
  intro s body after
  have hd : ∀ ms, ms <+: (s.enterMacro "m" ["x"]).moves body →
      s.scopes.depth < ((s.enterMacro "m" ["x"]).after ms).scopes.depth := by
    have h : ∀ ms ∈ ((s.enterMacro "m" ["x"]).moves body).inits,
        s.scopes.depth < ((s.enterMacro "m" ["x"]).after ms).scopes.depth := by decide +kernel
    intro ms hms
    exact h ms ((List.mem_inits _ _).2 hms)
  have hg : ∀ b, Move.defineGlobal "h" b ∉ (s.enterMacro "m" ["x"]).moves body := by
    intro b
    simp [body, moves, stepMoves, listMoves]
  obtain ⟨hs, hglob⟩ := bindings_kept (g := ⟨[]⟩) (c := .build .standard 0) (s := s)
    (x := .macroBody "m" ["x"] body) rfl hd
  exact ⟨(hs "x").1, (hs "y").2, hglob "h" hg⟩

end Session

end Stencil
