import Mathlib.Data.List.InsertIdx
import Stencil.Proofs.Check.Discreet
import Stencil.Proofs.Check.Editing
import Stencil.Proofs.Session.Starting

/-!
# Resets

A reset forgets the scopes and the references of a session, and leaves its chain and the catalog. So it
gives a new session, but for a number that no answer tells, if starting one over the catalog does not
change it, or not in a way that the rules see. Unless a rule cleared the catalog it does not.
-/

namespace Stencil

/-- The rule that an edit puts into the chain. -/
def ChainEdit.rule? : ChainEdit → Option Rule
  | .add rule | .insert _ rule => some rule
  | .remove _ | .clear => none

namespace Session

variable {g : Graph} {Q : Catalog → Catalog → Prop} {s : Session} {c c' : Catalog}

/-! ## All along a script -/

/-- The property holds wherever the moves lead. -/
def Throughout (P : Session → Prop) (s : Session) (ms : List Move) : Prop :=
  ∀ ms', ms' <+: ms → P (s.after ms')

namespace Throughout

variable {P : Session → Prop} {ms ms' : List Move}

theorem first (h : Throughout P s ms) : P s := h [] List.nil_prefix

theorem last (h : Throughout P s ms) : P (s.after ms) := h ms (List.prefix_refl ms)

theorem left (h : Throughout P s (ms ++ ms')) : Throughout P s ms := fun l hl =>
  h l (hl.trans (List.prefix_append ms ms'))

theorem right (h : Throughout P s (ms ++ ms')) : Throughout P (s.after ms) ms' := fun l hl => by
  rw [← after_append]
  exact h (ms ++ l) ((List.prefix_append_right_inj ms).2 hl)

theorem imp {P' : Session → Prop} (hi : ∀ s, P s → P' s) (h : Throughout P s ms) :
    Throughout P' s ms := fun l hl => hi _ (h l hl)

end Throughout

theorem run_append (xs ys : List Step) :
    s.run g c (xs ++ ys) =
      ((s.run g c xs).1 ++ ((s.run g c xs).2.1.run g (s.run g c xs).2.2 ys).1,
        ((s.run g c xs).2.1.run g (s.run g c xs).2.2 ys).2) := by
  induction xs generalizing s c with
  | nil => rfl
  | cons x xs ih => simp only [List.cons_append, run, ih]

/-! ## The number of a session -/

def numbered (s : Session) (n : Nat) : Session := { s with generation := n }

theorem validate_numbered (h : s.chain.Respects g Q) (hq : Q c c') (n : Nat) :
    ((s.numbered n).validate g c').1 = (s.validate g c).1 ∧
      Q (s.validate g c).2 ((s.numbered n).validate g c').2 := by
  have hg : (s.context g).graph = g := rfl
  obtain ⟨hd, hq'⟩ := h.evaluateAll hg hq s.references
  refine ⟨?_, hq'⟩
  have hr : ((s.numbered n).report g c').1 = (s.report g c).1 := congrArg Report.mk hd.symm
  rw [validate_fst, validate_fst, hr]

theorem edit_numbered (s : Session) (n : Nat) (e : ChainEdit) :
    ((s.numbered n).edit e).1 = (s.edit e).1 ∧ ((s.numbered n).edit e).2 = (s.edit e).2.numbered n := by
  unfold edit numbered
  cases e.apply s.chain with
  | error fault => exact ⟨rfl, rfl⟩
  | ok p => exact ⟨rfl, rfl⟩

theorem recordAll_numbered (s : Session) (n : Nat) (texts : List String) :
    (s.numbered n).recordAll texts = (s.recordAll texts).numbered n := by
  induction texts generalizing s with
  | nil => rfl
  | cons text texts ih => exact ih (s.recordReference text)

theorem enterMacro_numbered (s : Session) (n : Nat) (name : String) (parameters : List String) :
    (s.numbered n).enterMacro name parameters = (s.enterMacro name parameters).numbered n := by
  unfold enterMacro
  generalize hs : s.push .macroBody name = inner
  have hs' : (s.numbered n).push .macroBody name = inner.numbered n := by rw [← hs]; rfl
  rw [hs']
  clear hs hs'
  induction parameters generalizing inner with
  | nil => rfl
  | cons p ps ih => exact ih (inner.define p (.marker objectType))

theorem recordExpression_numbered (s : Session) (n : Nat) (text : String) :
    (s.numbered n).recordExpression text = (s.recordExpression text).numbered n :=
  recordAll_numbered s n (s.mentions text)

theorem assign_numbered (s : Session) (n : Nat) (name text : String) :
    (s.numbered n).assign name text = (s.assign name text).numbered n := by
  unfold assign
  rw [recordExpression_numbered]
  rfl

theorem enterEscape_numbered (s : Session) (n : Nat) (text name : String) :
    (s.numbered n).enterEscape text name = (s.enterEscape text name).numbered n := by
  unfold enterEscape
  rw [recordExpression_numbered]
  rfl

theorem isNew_reset (s : Session) : (s.reset.generation != s.generation) = true := by
  simp [reset]

theorem recordedSince_reset (s : Session) (n : Nat) : s.reset.recordedSince n = [] := List.drop_nil

mutual

/-- Over related catalogs a session with another number gives the same answer. -/
theorem step_numbered (g : Graph) (s : Session) (n : Nat) (c c' : Catalog) (hq : Q c c') : ∀ x : Step,
    Throughout (·.chain.Respects g Q) s (s.stepMoves x) →
    ((s.numbered n).step g c' x).1 = (s.step g c x).1 ∧
      (∃ m, ((s.numbered n).step g c' x).2.1 = (s.step g c x).2.1.numbered m) ∧
      Q (s.step g c x).2.2 ((s.numbered n).step g c' x).2.2
  | .reference _, _ | .push _ _, _ | .pop, _ | .define _ _, _ | .defineGlobal _ _, _
  | .importNamespace _, _ | .state, _ | .look _, _ | .references, _ | .settings, _ =>
    ⟨rfl, ⟨n, rfl⟩, hq⟩
  | .expression text, _ => ⟨rfl, ⟨n, recordExpression_numbered s n text⟩, hq⟩
  | .assign name text, _ => by
    simp only [step, assign_numbered]
    exact ⟨rfl, ⟨n, rfl⟩, hq⟩
  | .edit e, _ => ⟨(edit_numbered s n e).1, ⟨n, (edit_numbered s n e).2⟩, hq⟩
  | .validate, h => by
    obtain ⟨hv, hq'⟩ := validate_numbered h.first hq n
    exact ⟨congrArg Answer.outcome hv, ⟨n, rfl⟩, hq'⟩
  | .reset, _ => by
    simp only [step, isNew_reset]
    exact ⟨rfl, ⟨n + 1, rfl⟩, hq⟩
  | .list item list body, h => by
    have hb : Throughout _ (s.enterList item list) ((s.enterList item list).moves body) := h.left.right
    obtain ⟨ha, ⟨m, hs⟩, hq'⟩ := run_numbered g (s.enterList item list) n c c' hq body hb
    have he : (s.numbered n).enterList item list = (s.enterList item list).numbered n := rfl
    simp only [step, he, ha, hs]
    exact ⟨rfl, ⟨m, rfl⟩, hq'⟩
  | .macroBody name parameters body, h => by
    have hb := h.left.right
    rw [after_macroMoves] at hb
    obtain ⟨ha, ⟨m, hs⟩, hq'⟩ := run_numbered g (s.enterMacro name parameters) n c c' hq body hb
    simp only [step, enterMacro_numbered, ha, hs]
    exact ⟨rfl, ⟨m, rfl⟩, hq'⟩
  | .escape text name body, h => by
    have hb := h.left.right
    rw [after_escapeMoves] at hb
    obtain ⟨ha, ⟨m, hs⟩, hq'⟩ := run_numbered g (s.enterEscape text name) n c c' hq body hb
    simp only [step, enterEscape_numbered, ha, hs]
    exact ⟨rfl, ⟨m, rfl⟩, hq'⟩

theorem run_numbered (g : Graph) (s : Session) (n : Nat) (c c' : Catalog) (hq : Q c c') :
    ∀ xs : List Step, Throughout (·.chain.Respects g Q) s (s.moves xs) →
    ((s.numbered n).run g c' xs).1 = (s.run g c xs).1 ∧
      (∃ m, ((s.numbered n).run g c' xs).2.1 = (s.run g c xs).2.1.numbered m) ∧
      Q (s.run g c xs).2.2 ((s.numbered n).run g c' xs).2.2
  | [], _ => ⟨rfl, ⟨n, rfl⟩, hq⟩
  | x :: xs, h => by
    obtain ⟨ha, ⟨m, hs⟩, hq'⟩ := step_numbered g s n c c' hq x h.left
    have he : (s.step g c x).2.1 = s.after (s.stepMoves x) := congrArg (·.1) (step_spec g s c x).1
    have hx := h.right
    rw [← he] at hx
    obtain ⟨hr, ⟨m', hs'⟩, hq''⟩ := run_numbered g (s.step g c x).2.1 m _ _ hq' xs hx
    rw [← hs] at hr hs' hq''
    simp only [run, ha, hr, hs']
    refine ⟨?_, ⟨m', rfl⟩, hq''⟩
    rw [hs]
    rfl

end

theorem finish_numbered (h : s.chain.Respects g Q) (hq : Q c c') (n : Nat) :
    ((s.numbered n).finish g c').1 = (s.finish g c).1 := by
  have hv := (validate_numbered (s := { s with scopes := s.scopes.popAll }) h hq n).1
  exact congrArg (·.map fun _ => s.references) hv

/-! ## Rules all along -/

theorem mem_rules_edit {e : ChainEdit} {rule : Rule} (h : rule ∈ (s.edit e).2.chain.rules) :
    rule ∈ s.chain.rules ∨ e.rule? = some rule := by
  rw [rules_edit] at h
  cases e with
  | add rule' =>
    refine (List.mem_append.1 h).imp_right fun h => ?_
    rw [List.mem_singleton.1 h]
    rfl
  | insert index rule' =>
    refine (List.eq_or_mem_of_mem_insertIdx h).symm.imp_right fun h => ?_
    rw [h]
    rfl
  | remove index => exact .inl (List.mem_of_mem_eraseIdx h)
  | clear => cases h

/-- The rules that a session has on its way are those that it had and those that were put in. -/
theorem throughout_of_rules {R : Rule → Prop} (h : ∀ rule ∈ s.chain.rules, R rule) {ms : List Move}
    (he : ∀ e, .edit e ∈ ms → ∀ rule, e.rule? = some rule → R rule) :
    Throughout (fun s => ∀ rule ∈ s.chain.rules, R rule) s ms := by
  intro ms' hms
  have he' : ∀ e, .edit e ∈ ms' → ∀ rule, e.rule? = some rule → R rule := fun e hm =>
    he e (hms.subset hm)
  clear hms he
  induction ms' generalizing s with
  | nil => exact h
  | cons m ms' ih =>
    refine ih ?_ fun e hm => he' e (List.mem_cons_of_mem _ hm)
    cases m with
    | edit e =>
      intro rule hr
      exact (mem_rules_edit hr).elim (h rule) (he' e List.mem_cons_self rule)
    | _ => exact h

theorem leaves_run {P : Catalog → Prop} (hc : P c) {xs : List Step}
    (h : Throughout (·.chain.Leaves g P) s (s.moves xs)) : P (s.run g c xs).2.2 := by
  have hr : Throughout (·.chain.Respects g fun c c' => c = c' ∧ P c) s (s.moves xs) :=
    h.imp fun _ hl => hl.respects
  exact (run_numbered g s 0 c c ⟨rfl, hc⟩ xs hr).2.2.2

/-- Rules that do not clear the catalog take nothing from it. -/
theorem retains_run {xs : List Step}
    (h : Throughout (·.chain.Inquires g (· ≠ .clear)) s (s.moves xs)) :
    (s.run g c xs).2.2.Retains c :=
  leaves_run (P := fun c' => c'.Retains c) (.refl c) <| h.imp fun _ hi rule hm =>
    (hi rule hm).leaves fun _ _ hr hc => hc.serve hr

theorem alike_run (hc : c.Settled g) {xs : List Step}
    (h : Throughout (·.chain.Inquires g Request.ByName) s (s.moves xs)) :
    Catalog.Alike g c (s.run g c xs).2.2 :=
  leaves_run (P := fun c' => Catalog.Alike g c c') (.refl hc) <| h.imp fun _ hi rule hm =>
    (hi rule hm).leaves fun _ _ hr hc => hc.byName hr

/-! ## After a reset -/

theorem reset_numbered (source : GlobalSource) (settings : Settings) (classifier : Classifier)
    (chain : Chain) (reader : Reader) (ms : List Move) (c' : Catalog) :
    let s₁ := { (start g source settings c).1 with classifier, chain, reader }.after ms
    s₁.reset.numbered 0 =
      { (start g source settings c').1 with classifier, chain := s₁.chain, reader } := by
  intro s₁
  obtain ⟨hset, hglob, hclass, hread⟩ :=
    after_keeps (s := { (start g source settings c).1 with classifier, chain, reader }) ms
  show Session.mk 0 s₁.settings s₁.globals .empty [] 0 s₁.classifier s₁.chain s₁.reader = _
  rw [hset, hglob, hclass, hread]
  rfl

theorem run_reset (h k : List Step) :
    s.run g c (h ++ .reset :: k) =
      ((s.run g c h).1 ++ (.reset true 0 .empty, []) ::
          ((s.run g c h).2.1.reset.run g (s.run g c h).2.2 k).1,
        ((s.run g c h).2.1.reset.run g (s.run g c h).2.2 k).2) := by
  rw [run_append]
  simp only [run, step, isNew_reset, recordedSince_reset]
  rfl

/-- A session that was reset answers as a new one with the same classifier, chain and reader, and ends
as it does. The new one may be started over the catalog as the first one left it, if all that it asks for
is still there; without lasting shapes its asking shows in the count of discoveries, which rules must not
look at then. Discreet rules do not miss shapes, but only names. If the catalog answers as the first
session was given it, the new one may be started over what was before. -/
theorem reset_renews (g : Graph) (source : GlobalSource) (settings : Settings) (c : Catalog)
    (classifier : Classifier) (chain : Chain) (reader : Reader) (h k : List Step) (c' : Catalog) :
    let s₀ := { (start g source settings c).1 with classifier, chain, reader }
    let c₀ := (start g source settings c).2
    let s₁ := (s₀.run g c₀ h).2.1
    let c₁ := (s₀.run g c₀ h).2.2
    let s' := { (start g source settings c').1 with classifier, chain := s₁.chain, reader }
    let again := s₀.run g c₀ (h ++ .reset :: k)
    let fresh := s'.run g (start g source settings c').2 k
    let asked := registered source settings
    (c' = c₁ ∧ c₁.Covers g asked ∧
        (c₁.store.retention = .none →
          asked = [] ∨
            Throughout (·.chain.Respects g Catalog.SameButCount) s₁.reset (s₁.reset.moves k)) ∨
      Throughout (·.chain.Discreet g) s₁.reset (s₁.reset.moves k) ∧
        (Catalog.Alike g c₁ c' ∧
            (∀ t ∈ asked, ∀ u, g.Reach t u → Directory.Named c₁.store.aliases u) ∨
          Catalog.Alike g c c' ∧ Catalog.Alike g c₀ c₁)) →
      again.1 = (s₀.run g c₀ h).1 ++ (.reset true 0 .empty, []) :: fresh.1 ∧
      (again.2.1.finish g again.2.2).1 = (fresh.2.1.finish g fresh.2.2).1 ∧
      ∃ n, fresh.2.1 = { again.2.1 with generation := n } := by
  intro s₀ c₀ s₁ c₁ s' again fresh asked hcase
  have hs₁ : s₁ = s₀.after (s₀.moves h) := congrArg (·.1) (run_spec g s₀ c₀ h).1
  have hnew : s₁.reset.numbered 0 = s' := by
    have := reset_numbered (g := g) (c := c) source settings classifier chain reader (s₀.moves h) c'
    rwa [← hs₁] at this
  -- In each case the rules do not tell the catalogs apart with which the two sessions go on.
  have hq : ∃ Q : Catalog → Catalog → Prop, Q c₁ (start g source settings c').2 ∧
      Throughout (·.chain.Respects g Q) s₁.reset (s₁.reset.moves k) := by
    rcases hcase with ⟨rfl, hcov, hcount⟩ | ⟨hd, ⟨hl, hn⟩ | ⟨hl, hn⟩⟩
    · have same : c₁ = (start g source settings c₁).2 → ∃ Q : Catalog → Catalog → Prop,
          Q c₁ (start g source settings c₁).2 ∧
            Throughout (·.chain.Respects g Q) s₁.reset (s₁.reset.moves k) := fun he =>
        ⟨(· = ·), he, fun _ _ rule _ => rule.respects_eq g⟩
      cases hk : c₁.store.retention with
      | kept => exact same (start_of_covers hk hcov).symm
      | none =>
        rcases hcount hk with hnil | hcount
        · exact same (start_of_nil hnil).symm
        · exact ⟨Catalog.SameButCount, start_of_covers_none hk hcov, hcount⟩
    · exact ⟨Catalog.Alike g, alike_start_named hl hn, hd⟩
    · exact ⟨Catalog.Alike g, hn.symm.trans (alike_start hl source settings), hd⟩
  obtain ⟨Q, hq, hk⟩ := hq
  obtain ⟨ha, ⟨n, hs⟩, hq'⟩ := run_numbered g s₁.reset 0 c₁ _ hq k hk
  rw [hnew] at ha hs hq'
  have hrun : again = ((s₀.run g c₀ h).1 ++ (.reset true 0 .empty, []) :: (s₁.reset.run g c₁ k).1,
      (s₁.reset.run g c₁ k).2) := run_reset h k
  have hend : (s₁.reset.run g c₁ k).2.1.chain.Respects g Q := by
    have hafter : (s₁.reset.run g c₁ k).2.1 = s₁.reset.after (s₁.reset.moves k) :=
      congrArg (·.1) (run_spec g s₁.reset c₁ k).1
    rw [hafter]
    exact hk.last
  have hfin := finish_numbered hend hq' n
  rw [← hs] at hfin
  rw [hrun]
  refine ⟨?_, hfin.symm, n, hs⟩
  show _ = (s₀.run g c₀ h).1 ++ (.reset true 0 .empty, []) :: fresh.1
  rw [← ha]

section

-- Two runs are compared by what they start with, and not evaluated.
attribute [local irreducible] run

/-- A rule gives a name to a type before the reset; and with the standard rules alone the new session is
started over the catalog from before, or after all shapes lapsed. -/
theorem reset_renews_order :
    let g : Graph := ⟨[[⟨"id", false, .bool⟩], []]⟩
    let source := Globals.source (Table.empty.set "order" (.object (.record "Order" 0) 0))
    let settings := { Settings.standard with checksGlobalFields := true }
    let c := Catalog.build .standard 0
    let named : Request := .register "Invoice" (.record "Invoice" 1)
    let namer : Rule := ⟨"namer", .custom "namer", fun _ _ c => (false, c),
      fun _ ctx c => (.deferred, (c.serve ctx.graph named).2)⟩
    let s₀ := (start g source settings c).1
    let c₀ := (start g source settings c).2
    let h : List Step := [.list "x" "order" [.reference "order.total"], .validate]
    let h' : List Step := .edit (.add namer) :: h
    let k : List Step := [.reference "order.total", .validate]
    let fresh (h : List Step) (c' : Catalog) :=
      ({ s₀ with chain := (s₀.run g c₀ h).2.1.chain }.run g (start g source settings c').2 k).1
    let c₁ := (s₀.run g c₀ h).2.2
    let lapsed : Catalog := { c₁ with store := { c₁.store with shapes := [] } }
    (s₀.run g c₀ (h' ++ .reset :: k)).1 =
        (s₀.run g c₀ h').1 ++ (.reset true 0 .empty, []) :: fresh h' (s₀.run g c₀ h').2.2 ∧
      ∀ c' ∈ [c, lapsed], (s₀.run g c₀ (h ++ .reset :: k)).1 =
        (s₀.run g c₀ h).1 ++ (.reset true 0 .empty, []) :: fresh h c' := by
  intro g source settings c named namer s₀ c₀ h h' k fresh c₁ lapsed
  have hc : c.Reachable g := .build .standard 0
  have hname : ∀ rule ∈ Chain.standard.rules, rule.Inquires g Request.ByName := Chain.inquires_standard
  have hstay : ∀ rule ∈ Chain.standard.rules, rule.Inquires g (· ≠ .clear) := fun rule hm =>
    (hname rule hm).mono fun r hr he => by
      rw [he] at hr
      exact hr
  refine ⟨?_, fun c' hc' => ?_⟩
  · -- The rule asks, but not to clear.
    have hnamer : namer.Inquires g (· ≠ .clear) := fun r ctx hg =>
      ⟨⟨.found false, .found _, rfl⟩, .ask named fun _ => .found .deferred,
        .ask Request.noConfusion fun _ => .found _, hg ▸ rfl⟩
    have hr : (s₀.run g c₀ h').2.2.Retains c₀ := by
      refine retains_run (throughout_of_rules hstay fun e he rule hr => ?_)
      have he : e = .add namer := by simpa [h', h, moves, stepMoves, listMoves] using he
      rw [he] at hr
      cases hr
      exact hnamer
    have hcov := hr.covers (covers_start hc.settled source settings)
    have hkept : (s₀.run g c₀ h').2.2.store.retention = .kept :=
      hr.retention.trans (retains_start g source settings c).retention
    exact (reset_renews g source settings c .standard .standard s₀.reader h' k (s₀.run g c₀ h').2.2
      (.inl ⟨rfl, hcov, fun hk => absurd (hkept.symm.trans hk) Retention.noConfusion⟩)).1
  · have he : ∀ e, Move.edit e ∉ s₀.moves h := by simp [h, moves, stepMoves, listMoves]
    have hr : c₁.Retains c₀ := retains_run (throughout_of_rules hstay fun e hm => absurd hm (he e))
    have hl : Catalog.Alike g c₀ c₁ :=
      alike_run (bears_start ⟨hc.settled, rfl⟩ source settings).1
        (throughout_of_rules hname fun e hm => absurd hm (he e))
    have hk : (s₀.run g c₀ h).2.1.chain = .standard :=
      (congrArg (·.1.chain) (run_spec g s₀ c₀ h).1).trans (chain_after he)
    have hrules : ∀ rule ∈ (s₀.run g c₀ h).2.1.reset.chain.rules, rule.Discreet g := fun rule hm =>
      (hname rule (hk ▸ hm)).discreet
    have hd : Throughout (·.chain.Discreet g) (s₀.run g c₀ h).2.1.reset
        ((s₀.run g c₀ h).2.1.reset.moves k) :=
      throughout_of_rules hrules fun e hm => by simp [k, moves, stepMoves] at hm
    have hcase : Catalog.Alike g c₁ c' ∧ (∀ t ∈ registered source settings, ∀ u, g.Reach t u →
          Directory.Named c₁.store.aliases u) ∨
        Catalog.Alike g c c' ∧ Catalog.Alike g c₀ c₁ := by
      rcases List.mem_cons.1 hc' with rfl | hc'
      · exact .inr ⟨.refl hc.settled, hl⟩
      · rw [List.mem_singleton.1 hc']
        exact .inl ⟨.lapse hl.settled' (List.nil_sublist _),
          (hr.covers (covers_start hc.settled source settings)).named⟩
    exact (reset_renews g source settings c .standard .standard s₀.reader h k c' (.inr ⟨hd, hcase⟩)).1

end

theorem diagnostics_of_renews {s' : Session} {h : List Step} {text : String}
    (heq : (s.run g c (h ++ .reset :: [.reference text, .validate])).1 = (s.run g c h).1 ++
      (.reset true 0 .empty, []) :: (s'.run g c' [.reference text, .validate]).1) :
    (((s.run g c h).2.1.reset.recordReference text).report g (s.run g c h).2.2).1.diagnostics =
      ((s'.recordReference text).report g c').1.diagnostics := by
  rw [run_reset] at heq
  have hk := (List.cons.inj (List.append_cancel_left heq)).2
  exact diagnostics_of_validate_eq (List.cons.inj (congrArg Answer.outcomesAll hk)).1

/-- A reset leaves the chain as it was edited, and the catalog as a rule that cleared it left it; a new
session has neither, whether it is started over the catalog from before or over the one that was left. -/
theorem reset_leaves :
    let g : Graph := ⟨[[⟨"next", false, .record "Order" 0⟩]]⟩
    let source := Globals.source (Table.empty.set "order" (.object (.record "Order" 0) 0))
    let settings := { Settings.standard with checksGlobalFields := true }
    let c := Catalog.build .standard 0
    let wipe : Rule := ⟨"wipe", .custom "wipe", fun _ _ c => (false, c),
      fun _ ctx c => (Verdict.deferred.claiming, (c.serve ctx.graph .clear).2)⟩
    let s₀ := (start g source settings c).1
    let c₀ := (start g source settings c).2
    let Renews (h k : List Step) (c' : Catalog) : Prop :=
      (s₀.run g c₀ (h ++ .reset :: k)).1 = (s₀.run g c₀ h).1 ++ (.reset true 0 .empty, []) ::
        ((start g source settings c').1.run g (start g source settings c').2 k).1
    let h : List Step := [.reference "order", .edit (.insert 0 wipe), .validate, .edit (.remove 0)]
    let c₁ := (s₀.run g c₀ h).2.2
    (∀ c', ¬ Renews [.edit .clear] [.reference "ghost", .validate] c') ∧
      (s₀.run g c₀ h).2.1.chain = s₀.chain ∧
        ∀ c' ∈ [c, c₁], ¬ Renews h [.reference "order.next", .validate] c' := by
  intro g source settings c wipe s₀ c₀ Renews h c₁
  refine ⟨fun c' heq => ?_, rfl, fun c' hc' heq => ?_⟩
  · have hm : Chain.Missing (s₀.nextReference "ghost") (s₀.context g) :=
      ⟨by decide, by decide, by decide, by decide⟩
    have hnew : .unknownVariable ∈
        ((s₀.recordReference "ghost").report g (start g source settings c').2).1.diagnostics.map (·.code) := by
      rw [report_lone rfl]
      exact Chain.mem_codes_standard.2 (.inl ⟨rfl, hm⟩)
    -- The session that was reset has no rules, and finds nothing.
    rw [← show _ = ((s₀.recordReference "ghost").report g _).1.diagnostics from
      diagnostics_of_renews heq] at hnew
    cases hnew
  · have hb₀ : Catalog.Bears g _ c₀ := bears_start_build g source settings .standard 0
    have hw : c₀.readOnly = false := readOnly_start g source settings c
    have hc₁ : c₁ = (c₀.serve g .clear).2 := rfl
    have hempty : Catalog.Bears g .empty c₁ := by
      rw [hc₁]
      exact ⟨hb₀.1.serve .clear, (hb₀.1.serve_eq (.inl hw)).2⟩
    have hb' : Catalog.Bears g .empty c' := by
      rcases List.mem_cons.1 hc' with rfl | hc'
      · exact ⟨(Catalog.Reachable.build .standard 0).settled, rfl⟩
      · rwa [List.mem_singleton.1 hc']
    have hp : Chain.ChecksPath (s₀.nextReference "order.next") (s₀.context g) "next" :=
      ⟨by decide, by decide, by decide⟩
    have hcleared := mem_report_unknownField (s := (s₀.run g c₀ h).2.1.reset) rfl hempty hp rfl
    have hnew := mem_report_unknownField (s := (start g source settings c').1) rfl
      (bears_start hb' source settings) hp rfl
    have hn : (ownNames g source settings).get? "Order" = some (.record "Order" 0) :=
      get?_ownNames (t := .record "Order" 0) rfl rfl (by decide) rfl "Order"
    have htrue : ((ownNames g source settings).get? "Order").any (g.leads · "next") = true := by
      rw [hn]
      decide
    rw [Table.get?_empty, diagnostics_of_renews heq] at hcleared
    exact Bool.false_ne_true ((hnew.1 (hcleared.2 rfl)).symm.trans htrue)

end Session

end Stencil
