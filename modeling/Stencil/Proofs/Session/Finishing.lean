import Stencil.Proofs.Check.Discreet
import Stencil.Proofs.Session.Moves

/-!
# The last check

Finishing closes all scopes before it checks, so its rules see another stack than those of an earlier
check. The standard rules say the same over both: they go by what was ever bound in scopes and what
globals there are, and the one that looks at the open scopes never objects. So the last check finds
what an early one finds, on each reference that was recorded, in the order of the references.
-/

namespace Stencil

/-! ## Closed scopes -/

namespace Chain

theorem evaluate_popAll (r : Reference) (ctx : Context) (c : Catalog) :
    standard.evaluate r { ctx with scopes := ctx.scopes.popAll } c = standard.evaluate r ctx c := by
  rw [evaluate_standard, evaluate_standard]
  -- Closing scopes keeps the history and the globals, and the other two rules read nothing else.
  rfl

theorem evaluateAll_popAll (ctx : Context) (rs : List Reference) (c : Catalog) :
    standard.evaluateAll { ctx with scopes := ctx.scopes.popAll } rs c =
      standard.evaluateAll ctx rs c := by
  induction rs generalizing c with
  | nil => rfl
  | cons r rs ih => simp only [evaluateAll, evaluate_popAll, ih]

end Chain

namespace Session

variable {g : Graph} {s : Session} {c : Catalog}

theorem validate_popAll (hk : s.chain = .standard) (c : Catalog) :
    { s with scopes := s.scopes.popAll }.validate g c = s.validate g c := by
  have hr : { s with scopes := s.scopes.popAll }.report g c = s.report g c := by
    unfold report
    rw [hk]
    exact congrArg (fun p => (Report.mk p.1, p.2))
      (Chain.evaluateAll_popAll (s.context g) s.references c)
  unfold validate
  rw [hr]

theorem finish_fst (hk : s.chain = .standard) (c : Catalog) :
    (s.finish g c).1 = (s.validate g c).1.map fun _ => s.references := by
  unfold finish
  rw [validate_popAll hk]

theorem report_fst (hs : c.Settled g) (hk : s.chain = .standard) :
    (s.report g c).1 =
      ⟨s.references.flatMap fun r => (Chain.standard.evaluate r (s.context g) c).1⟩ := by
  rw [← hk]
  exact congrArg Report.mk (diagnostics_checked hs hk .refl s.references)

end Session

/-! ## Catalogs after checks -/

namespace Catalog.Reachable

variable {g : Graph} {c : Catalog} {ctx : Context}

theorem evaluate (h : c.Reachable g) (hg : ctx.graph = g) (r : Reference) :
    (Chain.standard.evaluate r ctx c).2.Reachable g := by
  have hl : Chain.standard.Leaves g (Reachable g) := fun rule hm =>
    (Chain.inquires_standard rule hm).leaves fun _ r _ hc => hc.serve r
  exact hl.evaluate hg h r

theorem run {s : Session} (h : c.Reachable g) (hk : s.chain = .standard) {xs : List Step}
    (he : ∀ e, .edit e ∉ s.moves xs) : (s.run g c xs).2.2.Reachable g := by
  rw [(Session.run_spec g s c xs).1]
  exact Session.catalogAfter_of_standard (P := Reachable g)
    (fun _ r _ hg h => evaluate h hg r) hk h he

end Catalog.Reachable

/-! ## References in their order -/

namespace Session

variable {g : Graph} {s : Session} {c : Catalog}

/-- The references that moves record, those that a reset then forgets included. -/
def recordings (s : Session) : List Move → List Reference
  | [] => []
  | .record text :: ms => s.nextReference text :: recordings (s.recordReference text) ms
  | m :: ms => recordings (s.perform m) ms

theorem references_after {ms : List Move} (h : .reset ∉ ms) :
    (s.after ms).references = s.references ++ s.recordings ms := by
  induction ms generalizing s with
  | nil => exact (List.append_nil _).symm
  | cons m ms ih =>
    have hms : .reset ∉ ms := fun h' => h (List.mem_cons_of_mem _ h')
    have ih := ih (s := s.perform m) hms
    cases m with
    | record text => exact ih.trans (List.append_assoc ..)
    | edit e => exact ih.trans (congrArg (· ++ _) (references_edit s e))
    | reset => exact absurd List.mem_cons_self h
    | _ => exact ih

/-! ## Finishing -/

/-- A script of a session with the standard rules records references in their order, since the last
reset if there was one. However many scopes it leaves open and whatever catalog is asked, a check finds
what the rules say about each of these references alone, one after the other; and finishing after it,
also when other checks came between and shapes lapsed, fails with the same report or gives the
references. -/
theorem finish_as_validated (hc : c.Reachable g) (hk : s.chain = .standard) {xs : List Step}
    (he : ∀ e, .edit e ∉ s.moves xs) :
    let s' := (s.run g c xs).2.1
    (s.run g c xs).2.2.Reachable g ∧
    (∀ before since, s.moves xs = before ++ since → .reset ∉ since →
      s'.references = (s.after before).references ++ (s.after before).recordings since) ∧
    ∀ c₁, c₁.Reachable g →
      let found := s'.references.flatMap fun r => (Chain.standard.evaluate r (s'.context g) c₁).1
      (s'.validate g c₁).1 = (if found.isEmpty then .ok () else .error (.rejected ⟨found⟩)) ∧
      Catalog.Checked g c₁ (s'.validate g c₁).2 ∧
      ∀ c₂, Catalog.Checked g c₁ c₂ →
        (s'.finish g c₂).1 = (s'.validate g c₁).1.map fun _ => s'.references := by
  intro s'
  have hs' : s' = s.after (s.moves xs) := congrArg (·.1) (run_spec g s c xs).1
  have hk' : s'.chain = .standard := by
    rw [hs', chain_after he, hk]
  refine ⟨hc.run hk he, fun before since hm hr => ?_, fun c₁ hc₁ => ?_⟩
  · rw [hs', hm, after_append, references_after hr]
  · intro found
    have hr : (s'.report g c₁).1 = ⟨found⟩ := report_fst hc₁.settled hk'
    refine ⟨?_, checked_validate hk' .refl, fun c₂ h => ?_⟩
    · rw [validate_fst, hr]
    · rw [finish_fst hk', validate_checked hc₁.settled hk' h]

theorem finish_as_validated_open :
    let g : Graph := ⟨[[⟨"id", false, .bool⟩]]⟩
    let source := Globals.source (Table.empty.set "order" (.object (.record "Order" 0) 0))
    let c := Catalog.build .expiring 0
    let s := (start g source .standard c).1
    let xs : List Step := [.push .unknown "page", .reference "gone", .list "x" "order.id"
      [.push .macroBody "m", .reference "nope.id"], .push .escape "e", .reference "x"]
    let s' := (s.run g c xs).2.1
    let c' := (s.run g c xs).2.2
    s'.scopes.depth = 2 ∧
      s'.references.map (·.expression) = ["gone", "order.id", "nope.id", "x"] ∧
      (s'.validate g c').1.isOk = false ∧
      (s'.finish g (s'.validate g c').2).1 = (s'.validate g c').1.map fun _ => s'.references := by
  intro g source c s xs s' c'
  have he : ∀ e, Move.edit e ∉ s.moves xs := by
    intro e
    simp [xs, moves, stepMoves, listMoves]
  obtain ⟨hc', -, hv⟩ := finish_as_validated (g := g) (c := c) (s := s) (.build .expiring 0) rfl he
  obtain ⟨-, hch, hf⟩ := hv c' hc'
  exact ⟨by decide +kernel, by decide +kernel, by decide +kernel, hf _ hch⟩

end Session

end Stencil
