import Stencil.Proofs.Session.Moves
import Stencil.Proofs.Session.Classifying
import Stencil.Proofs.Check.Contributions

/-!
# Missing variables

A reference is classified by what is visible when it is recorded, and checked by what was bound
until then. The two fit together: what was visible stays bound, and what was undefined is reported
exactly as long as it was never bound.
-/

namespace Stencil

/-- The names bound after a move, in a scope or globally, when these were bound before. -/
def Move.binds : List String → Move → List String
  | names, .define name _ | names, .defineGlobal name _ => name :: names
  | _, .reset => []
  | names, _ => names

/-- The names that the moves bind since the last reset. -/
def boundBy (ms : List Move) : List String := ms.foldl Move.binds []

namespace Session

/-- A session without scopes, bindings and references, with the standard classifier and rules. -/
structure Fresh (s : Session) : Prop where
  scopes : s.scopes = .empty
  references : s.references = []
  classifier : s.classifier = .standard
  chain : s.chain = .standard

/-- What the kind of a reference tells about its variable. -/
def Explains (source : GlobalSource) (scopes : Scopes) (r : Reference) : Prop :=
  match r.kind with
  | .scopeItem => r.settled = true
  | .localVariable => scopes.wasScopeBound r.root = true
  | .global => source.contains r.root = true ∨ scopes.isGlobal r.root = true
  | .undefined => r.settled = false ∧ source.contains r.root = false

/-- The session keeps account of the bound names and of what its references were bound to. -/
structure Accounts (names : List String) (s : Session) : Prop where
  classifier : s.classifier = .standard
  chain : s.chain = .standard
  bound : ∀ n, n ∈ names ↔ s.scopes.Bound n
  remembered : s.scopes.Remembered
  explains : ∀ r ∈ s.references, Explains s.globals s.scopes r

theorem fresh_start (g : Graph) (source : GlobalSource) (settings : Settings) (c : Catalog) :
    (start g source settings c).1.Fresh := ⟨rfl, rfl, rfl, rfl⟩

theorem Fresh.accounts {s : Session} (h : s.Fresh) : Accounts [] s where
  classifier := h.classifier
  chain := h.chain
  bound n := by
    rw [h.scopes, iff_false_right (Scopes.not_bound_empty n)]
    exact List.not_mem_nil
  remembered := h.scopes ▸ Scopes.remembered_empty
  explains r hr := by rw [h.references] at hr; cases hr

/-! ## One reference -/

theorem Explains.mono {source : GlobalSource} {scopes scopes' : Scopes} (hk : scopes.Keeps scopes')
    {r : Reference} (h : Explains source scopes r) : Explains source scopes' r := by
  unfold Explains at h ⊢
  split <;> simp only [*] at h
  · exact h
  · exact hk.history _ h
  · exact h.imp_right (hk.globals _)
  · exact h

variable {names : List String} {s : Session}

theorem explains_nextReference (h : s.classifier = .standard) (hr : s.scopes.Remembered)
    (text : String) : Explains s.globals s.scopes (s.nextReference text) := by
  unfold Explains
  rw [nextReference, h, Classifier.classify_standard]
  cases hs : s.scopes.scopeValue? (rootOf (Text.trimmed text)) with
  | some b =>
    cases b with
    | marker t => exact rfl
    | value v => exact hr.wasScopeBound hs
  | none =>
    cases hc : s.globals.contains (rootOf (Text.trimmed text)) with
    | true => exact .inl hc
    | false =>
      cases hg : s.scopes.globalValue? (rootOf (Text.trimmed text)) with
      | some b => exact .inr (Option.isSome_iff_exists.2 ⟨b, hg⟩)
      | none => exact ⟨rfl, hc⟩

/-- An undefined variable is missing as long as it was never bound, and no other is missing. -/
theorem Accounts.missing_iff (h : Accounts names s) (g : Graph) {r : Reference}
    (hr : r ∈ s.references) :
    Chain.Missing r (s.context g) ↔ r.kind = .undefined ∧ r.root ∉ names := by
  have he := h.explains r hr
  rw [h.bound, Scopes.Bound]
  show (r.settled = false ∧ s.scopes.wasScopeBound r.root = false ∧
    s.globals.contains r.root = false ∧ s.scopes.isGlobal r.root = false) ↔ _
  unfold Explains at he
  constructor
  · -- Each other kind contradicts one part of being missing.
    rintro ⟨hs, hh, hc, hg⟩
    refine ⟨?_, fun hb => ?_⟩
    · cases hk : r.kind with
      | scopeItem => rw [hk] at he; exact absurd (hs.symm.trans he) Bool.false_ne_true
      | localVariable => rw [hk] at he; exact absurd (hh.symm.trans he) Bool.false_ne_true
      | global =>
        rw [hk] at he
        rcases he with he | he
        · exact absurd (hc.symm.trans he) Bool.false_ne_true
        · exact absurd (hg.symm.trans he) Bool.false_ne_true
      | undefined => rfl
    · rcases hb with hb | hb
      · exact absurd (hh.symm.trans hb) Bool.false_ne_true
      · exact absurd (hg.symm.trans hb) Bool.false_ne_true
  · rintro ⟨hk, hb⟩
    rw [hk] at he
    obtain ⟨hh, hg⟩ := not_or.1 hb
    exact ⟨he.1, Bool.not_eq_true _ ▸ hh, he.2, Bool.not_eq_true _ ▸ hg⟩

/-! ## One move -/

theorem Accounts.keep (h : Accounts names s) {names' : List String} {scopes : Scopes}
    (hk : s.scopes.Keeps scopes) (hb : ∀ n, n ∈ names' ↔ scopes.Bound n)
    (hr : scopes.Remembered) : Accounts names' { s with scopes } where
  classifier := h.classifier
  chain := h.chain
  bound := hb
  remembered := hr
  explains r hm := (h.explains r hm).mono hk

theorem Accounts.perform (h : Accounts names s) {m : Move} (hm : ∀ e, m ≠ .edit e) :
    Accounts (m.binds names) (s.perform m) := by
  cases m with
  | record text =>
    refine ⟨h.classifier, h.chain, h.bound, h.remembered, fun r hr => ?_⟩
    rcases List.mem_append.1 hr with hr | hr
    · exact h.explains r hr
    · rw [List.mem_singleton.1 hr]
      exact explains_nextReference h.classifier h.remembered text
  | push kind name =>
    exact h.keep ⟨fun _ => id, fun _ => id⟩ h.bound (h.remembered.push kind name)
  | close depth =>
    exact h.keep ⟨fun _ => id, fun _ => id⟩ h.bound (h.remembered.unwindTo depth)
  | define name b =>
    refine h.keep (Scopes.keeps_define _ name b) (fun n => ?_) h.remembered.define
    rw [Move.binds, List.mem_cons, Scopes.bound_define, h.bound]
  | defineGlobal name b =>
    refine h.keep (Scopes.keeps_defineGlobal _ name b) (fun n => ?_) h.remembered.defineGlobal
    rw [Move.binds, List.mem_cons, Scopes.bound_defineGlobal, h.bound]
  | edit e => exact absurd rfl (hm e)
  | check => exact h
  | reset => exact Fresh.accounts ⟨rfl, rfl, h.classifier, h.chain⟩

theorem Accounts.after (h : Accounts names s) {ms : List Move} (hm : ∀ e, .edit e ∉ ms) :
    Accounts (ms.foldl Move.binds names) (s.after ms) := by
  induction ms generalizing names s with
  | nil => exact h
  | cons m ms ih =>
    have hm' : ∀ e, m ≠ .edit e := fun e he => hm e (he ▸ List.mem_cons_self)
    exact ih (h.perform hm') fun e he => hm e (List.mem_cons_of_mem _ he)

/-! ## One contribution -/

theorem Accounts.contribution (h : Accounts names s) (g : Graph) {c : Catalog} {r : Reference}
    {ds : List Diagnostic} (hd : (r, ds) ∈ s.contributions g c) :
    ds.length ≤ 1 ∧
      (.unknownVariable ∈ ds.map (·.code) ↔ r.kind = .undefined ∧ r.root ∉ names) ∧
      (r.kind = .undefined → .unknownField ∉ ds.map (·.code)) := by
  rw [contributions, h.chain] at hd
  obtain ⟨hr, c', -, rfl⟩ :=
    @Chain.exists_of_mem_contributions _ _ (fun _ => True) (fun _ _ h => h) _ _ trivial _ _ hd
  have hmiss := h.missing_iff g hr
  have hkind : r.kind = .undefined → Rule.checksKind r.kind (s.context g) = false := fun hk => by
    rw [hk]
    rfl
  refine ⟨Chain.length_evaluate_standard c' fun hm => hkind (hmiss.1 hm).1, ?_, fun hk hf => ?_⟩
  · rw [Chain.mem_codes_standard, hmiss]
    constructor
    · rintro (⟨-, h⟩ | ⟨h, -⟩)
      · exact h
      · cases h
    · exact fun h => .inl ⟨rfl, h⟩
  · rcases Chain.mem_codes_standard.1 hf with ⟨h, -⟩ | ⟨-, path, h, -⟩
    · cases h
    · exact Bool.false_ne_true ((hkind hk).symm.trans h.1)

/-- Each check of a script answers with a report, or with none if it is empty, that consists of what the
references up to then contribute in their order. -/
theorem missing_reported (hs : s.Fresh) {script : List Step} (hk : ∀ e, .edit e ∉ s.moves script)
    {ms rest : List Move} (hm : s.moves script = ms ++ .check :: rest) (g : Graph) (c : Catalog) :
    ∃ (parts : List (Reference × List Diagnostic)) (later : List (Except Failure Unit)),
      let report : Report := ⟨parts.flatMap (·.2)⟩
      Answer.outcomesAll (s.run g c script).1 = s.outcomes g c ms ++
        (if report.diagnostics.isEmpty then .ok () else .error (.rejected report)) :: later ∧
      parts.map (·.1) = (s.after ms).references ∧
      ∀ r ds, (r, ds) ∈ parts →
        ds.length ≤ 1 ∧
        (.unknownVariable ∈ ds.map (·.code) ↔ r.kind = .undefined ∧ r.root ∉ boundBy ms) ∧
        (r.kind = .undefined → .unknownField ∉ ds.map (·.code)) := by
  have hms : ∀ e, .edit e ∉ ms := fun e he => hk e (hm ▸ List.mem_append_left _ he)
  have ha : Accounts (boundBy ms) (s.after ms) := hs.accounts.after hms
  refine ⟨(s.after ms).contributions g (s.catalogAfter g c ms),
    (s.after ms).outcomes g ((s.after ms).validate g (s.catalogAfter g c ms)).2 rest, ?_,
    Chain.map_fst_contributions _ _, fun r ds hd => ha.contribution g hd⟩
  have hr : ((s.after ms).report g (s.catalogAfter g c ms)).1 =
      ⟨((s.after ms).contributions g (s.catalogAfter g c ms)).flatMap (·.2)⟩ :=
    congrArg Report.mk (report_eq g (s.after ms) (s.catalogAfter g c ms))
  rw [(run_spec g s c script).2, hm, outcomes_append, outcomes, validate_fst, hr]

/-- Wherever a script of a fresh session stands, a reference is reported as missing exactly if it
was undefined when it was recorded and its variable was not bound since the last reset. -/
theorem missing_exactly (hs : s.Fresh) {script : List Step} (hk : ∀ e, .edit e ∉ s.moves script)
    {ms : List Move} (hm : ms <+: s.moves script) (g : Graph) (c : Catalog) {r : Reference}
    {ds : List Diagnostic} (hd : (r, ds) ∈ (s.after ms).contributions g (s.catalogAfter g c ms)) :
    ds.length ≤ 1 ∧
      (.unknownVariable ∈ ds.map (·.code) ↔ r.kind = .undefined ∧ r.root ∉ boundBy ms) ∧
      (r.kind = .undefined → .unknownField ∉ ds.map (·.code)) :=
  (hs.accounts.after fun e he => hk e (hm.subset he)).contribution g hd

theorem missing_exactly_price :
    let s := (start ⟨[]⟩ (Globals.source Table.empty) .standard (.build .standard 0)).1
    ∃ ds, (s.nextReference "price", ds) ∈
        (s.after [.record "price"]).contributions ⟨[]⟩ (.build .standard 0) ∧
      .unknownVariable ∈ ds.map (·.code) := by
  intro s
  have hk : ∀ e, Move.edit e ∉ s.moves [.reference "price", .define "price" (.value .null)] := by
    intro e
    simp [moves, stepMoves]
  have hm : [.record "price"] <+: s.moves [.reference "price", .define "price" (.value .null)] :=
    ⟨_, rfl⟩
  have h := missing_exactly (fresh_start ..) hk hm ⟨[]⟩ (.build .standard 0) List.mem_cons_self
  exact ⟨_, List.mem_cons_self, h.2.1.2 ⟨by decide, by decide⟩⟩

end Session

end Stencil
