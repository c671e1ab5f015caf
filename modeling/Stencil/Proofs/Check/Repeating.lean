import Stencil.Proofs.Check.Contributions
import Stencil.Proofs.Shape.Lapsing

/-!
# Checks repeat

The standard rules ask the catalog by name only. So a check leaves what names stand for as it is, and
what it finds on a reference depends on that and not on what was checked before, nor on which shapes
lapsed meanwhile.
-/

namespace Stencil

/-! ## What the rules ask for -/

/-- If the fields of the reference are checked, then on the same type by either directory. -/
def Directory.Agree (d d' : Directory) (ctx : Context) (r : Reference) : Prop :=
  ∀ path, Chain.ChecksPath r ctx path → d.get? r.typeName = d'.get? r.typeName

theorem Directory.Agree.refl (d : Directory) (ctx : Context) (r : Reference) : d.Agree d ctx r :=
  fun _ _ => rfl

namespace Catalog.Steady

variable {g : Graph} {d d' : Directory} {P P' : Catalog → Prop} {Q Q' : Descriptor → Prop}
  {c c' : Catalog} (h : Steady g d P Q) (h' : Steady g d' P' Q') {ctx : Context} (hg : ctx.graph = g)
include h h' hg

/-- Of the names only that of the reference's type matters. -/
theorem check_field (hc : P c) (hc' : P' c') {r : Reference}
    (hr : d.get? r.typeName = d'.get? r.typeName) :
    (Rule.field.check r ctx c).1 = (Rule.field.check r ctx c').1 ∧ P (Rule.field.check r ctx c).2 := by
  simp only [Rule.field, hg]
  cases fieldsOf? r.expression with
  | none => exact ⟨rfl, hc⟩
  | some path =>
    obtain ⟨hk, hm⟩ := h.knowsField hc r.typeName path
    obtain ⟨hk', hm'⟩ := h'.knowsField hc' r.typeName path
    rw [hr] at hk
    dsimp only
    generalize c.knowsField g r.typeName path = answer at hk hm
    generalize c'.knowsField g r.typeName path = answer' at hk' hm'
    obtain ⟨known, c₁⟩ := answer
    obtain ⟨known', c₁'⟩ := answer'
    obtain rfl : known = known' := hk.trans hk'.symm
    cases known with
    | true => exact ⟨rfl, hm⟩
    | false =>
      obtain ⟨hs, hm⟩ := h.suggestions hm r.typeName path
      have hs' := (h'.suggestions hm' r.typeName path).1
      rw [hr] at hs
      refine ⟨?_, hm⟩
      simp only [hs, hs']

theorem said_field (hc : P c) (hc' : P' c') {r : Reference} (hr : d.Agree d' ctx r) :
    (Chain.said Rule.field r ctx c).1 = (Chain.said Rule.field r ctx c').1 ∧
      P (Chain.said Rule.field r ctx c).2 := by
  have hsame : (Rule.field.skips r ctx c').1 = (Rule.field.skips r ctx c).1 := rfl
  rw [Chain.said_eq rfl, Chain.said_eq rfl, hsame]
  cases hs : (Rule.field.skips r ctx c).1 with
  | true => exact ⟨rfl, hc⟩
  | false =>
    obtain ⟨path, hp⟩ := Chain.skips_field_eq_false.1 hs
    obtain ⟨hv, hm⟩ := h.check_field h' hg hc hc' (hr path hp)
    exact ⟨congrArg (Chain.diagnostics Rule.field r) hv, hm⟩

theorem evaluate (hc : P c) (hc' : P' c') {r : Reference} (hr : d.Agree d' ctx r) :
    (Chain.standard.evaluate r ctx c).1 = (Chain.standard.evaluate r ctx c').1 ∧
      P (Chain.standard.evaluate r ctx c).2 := by
  obtain ⟨hf, hm⟩ := h.said_field h' hg hc hc' hr
  rw [Chain.evaluate_standard, Chain.evaluate_standard, hf]
  refine ⟨congrArg (· ++ _) ?_, hm⟩
  rw [Chain.said_eq rfl, Chain.said_eq rfl]
  split <;> simp_all [Rule.globalExistence]

end Catalog.Steady

namespace Catalog

variable {g : Graph} {c c' : Catalog} {ctx : Context}

theorem Bears.evaluate {d d' : Directory} (h : Bears g d c) (h' : Bears g d' c') (hg : ctx.graph = g)
    {r : Reference} (hr : d.Agree d' ctx r) :
    (Chain.standard.evaluate r ctx c).1 = (Chain.standard.evaluate r ctx c').1 ∧
      Bears g d (Chain.standard.evaluate r ctx c).2 := by
  have hst := Settled.steady (h.2 ▸ h.1.names : d.Settled g)
  have hst' := Settled.steady (h'.2 ▸ h'.1.names : d'.Settled g)
  exact hst.evaluate hst' hg h h' hr

theorem Bears.kept {d : Directory} (ctx : Context) (r : Reference) (c : Catalog) (hg : ctx.graph = g)
    (h : Bears g d c) : Bears g d (Chain.standard.evaluate r ctx c).2 :=
  (h.evaluate h hg (.refl d ctx r)).2

/-- The later catalog is the earlier one after checks by the standard rules, while shapes lapsed. -/
inductive Checked (g : Graph) (c : Catalog) : Catalog → Prop
  | refl : Checked g c c
  | check {c' : Catalog} (h : Checked g c c') (r : Reference) {ctx : Context} (hg : ctx.graph = g) :
    Checked g c (Chain.standard.evaluate r ctx c').2
  | lapse {c' : Catalog} (h : Checked g c c') {shapes : List Shape} (hs : shapes.Sublist c'.shapes) :
    Checked g c { c' with store := { c'.store with shapes } }

theorem Checked.evaluateAll (h : Checked g c c') (hg : ctx.graph = g) (rs : List Reference) :
    Checked g c (Chain.standard.evaluateAll ctx rs c').2 :=
  Chain.evaluateAll_snd (fun r _ h => h.check r hg) h rs

theorem Settled.checked (hs : Settled g c) (h : Checked g c c') : Bears g c.store.aliases c' := by
  induction h with
  | refl => exact ⟨hs, rfl⟩
  | check _ r hg ih => exact Bears.kept _ r _ hg ih
  | lapse _ hsub ih => exact ⟨ih.1.lapse hsub, ih.2⟩

theorem Bears.checked {d : Directory} (hb : Bears g d c) (h : Checked g c c') : Bears g d c' :=
  hb.2 ▸ hb.1.checked h

theorem Settled.evaluate_checked (hs : Settled g c) (h : Checked g c c') (hg : ctx.graph = g)
    (r : Reference) :
    (Chain.standard.evaluate r ctx c').1 = (Chain.standard.evaluate r ctx c).1 :=
  ((hs.checked h).evaluate ⟨hs, rfl⟩ hg (.refl _ _ r)).1

theorem Settled.resolve_checked (hs : Settled g c) (h : Checked g c c') (name : String) :
    (c'.resolve g name).1 = (c.resolve g name).1 := by
  rw [((Settled.steady hs.names).resolve (hs.checked h) name).1,
    ((Settled.steady hs.names).resolve ⟨hs, rfl⟩ name).1]

theorem Settled.contributions_checked (hs : Settled g c) (h : Checked g c c') (hg : ctx.graph = g)
    (rs : List Reference) :
    Chain.standard.contributions ctx rs c' =
      rs.map fun r => (r, (Chain.standard.evaluate r ctx c).1) := by
  induction rs generalizing c' with
  | nil => rfl
  | cons r rs ih =>
    rw [Chain.contributions, List.map_cons, hs.evaluate_checked h hg r, ih (h.check r hg)]

end Catalog

namespace Session

variable {g : Graph} {c c' : Catalog} {s : Session}

theorem checked_validate (hk : s.chain = .standard) (h : Catalog.Checked g c c') :
    Catalog.Checked g c (s.validate g c').2 := by
  show Catalog.Checked g c (s.chain.evaluateAll (s.context g) s.references c').2
  rw [hk]
  exact h.evaluateAll rfl s.references

theorem validate_fst (g : Graph) (s : Session) (c : Catalog) :
    (s.validate g c).1 =
      if (s.report g c).1.diagnostics.isEmpty then .ok () else .error (.rejected (s.report g c).1) :=
  rfl

theorem diagnostics_of_validate_eq {s' : Session} (h : (s.validate g c).1 = (s'.validate g c').1) :
    (s.report g c).1.diagnostics = (s'.report g c').1.diagnostics := by
  rw [validate_fst, validate_fst] at h
  by_cases he : (s.report g c).1.diagnostics.isEmpty = true
  · by_cases he' : (s'.report g c').1.diagnostics.isEmpty = true
    · rw [List.isEmpty_iff.1 he, List.isEmpty_iff.1 he']
    · rw [if_pos he, if_neg he'] at h
      cases h
  · by_cases he' : (s'.report g c').1.diagnostics.isEmpty = true
    · rw [if_neg he, if_pos he'] at h
      cases h
    · rw [if_neg he, if_neg he'] at h
      exact congrArg Report.diagnostics (Failure.rejected.inj (Except.error.inj h))

/-! ## A single reference -/

theorem report_lone (hr : s.references = []) (text : String) :
    ((s.recordReference text).report g c).1.diagnostics =
      (s.chain.evaluate (s.nextReference text) (s.context g) c).1 := by
  show (s.chain.evaluateAll (s.context g) (s.references ++ [s.nextReference text]) c).1 = _
  rw [hr]
  simp only [List.nil_append, Chain.evaluateAll, List.append_nil]

theorem mem_report_unknownField {d : Directory} (hk : s.chain = .standard) (h : Catalog.Bears g d c)
    {text path : String} (hp : Chain.ChecksPath (s.nextReference text) (s.context g) path)
    (hr : s.references = []) :
    .unknownField ∈ ((s.recordReference text).report g c).1.diagnostics.map (·.code) ↔
      (d.get? (s.nextReference text).typeName).any (g.leads · path) = false := by
  have hst := Catalog.Settled.steady (h.2 ▸ h.1.names : d.Settled g)
  rw [report_lone hr, hk, Chain.mem_codes_standard,
    ← (hst.knowsField h (s.nextReference text).typeName path).1]
  constructor
  · rintro (⟨hc, -⟩ | ⟨-, path', hp', hf⟩)
    · cases hc
    · obtain rfl : path' = path := Option.some.inj (hp'.2.1.symm.trans hp.2.1)
      exact hf
  · exact fun hf => .inr ⟨rfl, path, hp, hf⟩

/-! ## Checks repeat -/

theorem contributions_checked (hs : c.Settled g) (hk : s.chain = .standard)
    (h : Catalog.Checked g c c') (rs : List Reference) :
    { s with references := rs }.contributions g c' =
      rs.map fun r => (r, (s.chain.evaluate r (s.context g) c).1) := by
  unfold contributions
  rw [hk]
  exact hs.contributions_checked h rfl rs

theorem diagnostics_checked (hs : c.Settled g) (hk : s.chain = .standard)
    (h : Catalog.Checked g c c') (rs : List Reference) :
    ({ s with references := rs }.report g c').1.diagnostics =
      rs.flatMap fun r => (s.chain.evaluate r (s.context g) c).1 := by
  rw [report_eq, contributions_checked hs hk h, List.flatMap_map]

theorem validate_checked (hs : c.Settled g) (hk : s.chain = .standard)
    (h : Catalog.Checked g c c') : (s.validate g c').1 = (s.validate g c).1 := by
  have hd : (s.report g c').1.diagnostics = (s.report g c).1.diagnostics :=
    (diagnostics_checked hs hk h s.references).trans (diagnostics_checked hs hk .refl s.references).symm
  have hr : (s.report g c').1 = (s.report g c).1 := congrArg Report.mk hd
  rw [validate_fst, validate_fst, hr]

/-- From any catalog on, checks by the standard rules find on a reference the same whatever was
checked before, and leave names standing for the same types. So a session finds the same again, and
the references in another order give the same findings in that order. -/
theorem validate_repeatable (hc : c.Reachable g) (hk : s.chain = .standard) :
    (s.validate g (s.validate g c).2).1 = (s.validate g c).1 ∧
    ∀ c', Catalog.Checked g c c' →
      Catalog.Checked g c (s.validate g c').2 ∧
      (s.validate g c').1 = (s.validate g c).1 ∧
      (∀ r, (s.chain.evaluate r (s.context g) c').1 = (s.chain.evaluate r (s.context g) c).1) ∧
      (∀ rs, rs.Perm s.references →
        ({ s with references := rs }.contributions g c').Perm (s.contributions g c) ∧
        ({ s with references := rs }.report g c').1.diagnostics =
          rs.flatMap fun r => (s.chain.evaluate r (s.context g) c).1) ∧
      ∀ name, c'.store.alias? name = c.store.alias? name ∧
        (c'.resolve g name).1 = (c.resolve g name).1 := by
  have hs := hc.settled
  refine ⟨validate_checked hs hk (checked_validate hk .refl), fun c' h => ⟨checked_validate hk h,
    validate_checked hs hk h, fun r => ?_, fun rs hp => ⟨?_, diagnostics_checked hs hk h rs⟩,
    fun name => ⟨?_, hs.resolve_checked h name⟩⟩⟩
  · rw [hk]
    exact hs.evaluate_checked h rfl r
  · have hb := contributions_checked hs hk .refl s.references
    rw [contributions_checked hs hk h]
    exact (hp.map _).trans (.of_eq hb.symm)
  · exact congrArg (·.get? name) (hs.checked h).2

/-- Two references to records that lead to each other, over a catalog whose shapes expire at once. -/
theorem validate_repeatable_expiring :
    let a := Descriptor.record "A" 0
    let g : Graph := ⟨[[⟨"next", false, .record "B" 1⟩], [⟨"next", false, a⟩]]⟩
    let c := ((Catalog.build .expiring 0).serve g (.register "Node" a)).2
    let s := { (start g (Globals.source .empty) .standard c).1 with
      references := [⟨"x.next.nope", .scopeItem, "Node", "t:ref:1", true⟩,
        ⟨"y.next", .scopeItem, "A", "t:ref:2", true⟩] }
    Catalog.Reachable g c ∧ s.chain = .standard ∧
      (s.validate g (s.validate g c).2).1 = (s.validate g c).1 := by
  intro a g c s
  have hc : Catalog.Reachable g c := (Catalog.Reachable.build .expiring 0).serve _
  exact ⟨hc, rfl, (validate_repeatable hc (s := s) rfl).1⟩

end Session

end Stencil
