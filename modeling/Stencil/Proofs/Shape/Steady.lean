import Stencil.Proofs.Shape.Directory

/-!
# Requests that leave no trace

A request by name asks for the type that has the name, and walks along fields from there. If asking
for such types keeps a property of catalogs, then so do the requests by name, and their answers
depend on the directory of the names only.
-/

namespace Stencil

theorem Graph.mem_fieldTypes_of_field? {g : Graph} {t u : Descriptor} {name : String}
    (h : (g.shape t).field? name = some u) : u ∈ g.fieldTypes t := by
  obtain ⟨l, r, hl, -⟩ := List.lookup_eq_some_iff.1 h
  refine List.mem_map.2 ⟨(name, u), ?_, rfl⟩
  rw [hl]
  exact List.mem_append_right _ List.mem_cons_self

namespace Catalog

/-- A catalog with `P` has the names of the directory, gives for every type with `Q` the shape that
would be discovered, and has `P` afterwards. Types with names have `Q`, and fields pass it on. -/
structure Steady (g : Graph) (d : Directory) (P : Catalog → Prop) (Q : Descriptor → Prop) : Prop where
  names : ∀ {c}, P c → c.store.aliases = d
  named : ∀ {name t}, d.get? name = some t → Q t
  field : ∀ {t u}, Q t → u ∈ g.fieldTypes t → Q u
  shape : ∀ {c t}, P c → Q t → (c.shapeOf g t).1 = g.shape t
  keep : ∀ {c t}, P c → Q t → P (c.shapeOf g t).2

namespace Steady

variable {g : Graph} {d : Directory} {P : Catalog → Prop} {Q : Descriptor → Prop} {c : Catalog}
  (h : Steady g d P Q)
include h

/-! ## Walks -/

theorem walk (hc : P c) {t : Descriptor} (ht : Q t) (names : List String) :
    (c.walk g (g.shape t) names).1 = (g.follow? t names).isSome ∧
      P (c.walk g (g.shape t) names).2 := by
  induction names generalizing c t with
  | nil => exact ⟨rfl, hc⟩
  | cons name rest ih =>
    rw [Catalog.walk, Graph.follow?]
    cases hf : (g.shape t).field? name with
    | none => exact ⟨rfl, hc⟩
    | some u =>
      have hu : Q u := h.field ht (Graph.mem_fieldTypes_of_field? hf)
      simp only [h.shape hc hu, Option.bind_some]
      exact ih (h.keep hc hu) hu

theorem suggestFrom (hc : P c) {t : Descriptor} (ht : Q t) (words : List String) :
    (c.suggestFrom g (g.shape t) words).1 = g.closeFrom t words ∧
      P (c.suggestFrom g (g.shape t) words).2 := by
  induction words generalizing c t with
  | nil => exact ⟨rfl, hc⟩
  | cons word rest ih =>
    cases rest with
    | nil => exact ⟨rfl, hc⟩
    | cons next rest =>
      simp only [Catalog.suggestFrom, Graph.closeFrom]
      cases hf : (g.shape t).field? word with
      | none => exact ⟨rfl, hc⟩
      | some u =>
        have hu : Q u := h.field ht (Graph.mem_fieldTypes_of_field? hf)
        simp only [h.shape hc hu]
        exact ih (h.keep hc hu) hu

theorem hasPath (hc : P c) {t : Descriptor} (ht : Q t) (path : String) :
    (c.hasPath g (g.shape t) path).1 = g.leads t path ∧ P (c.hasPath g (g.shape t) path).2 := by
  unfold Catalog.hasPath Graph.leads
  cases (Path.ofText path).segments with
  | nil => exact ⟨rfl, hc⟩
  | cons name rest => exact h.walk hc ht (name :: rest)

/-! ## Requests by name -/

theorem resolve (hc : P c) (name : String) :
    (c.resolve g name).1 = (d.get? name).map g.shape ∧ P (c.resolve g name).2 := by
  have ha : c.store.alias? name = d.get? name := congrArg (·.get? name) (h.names hc)
  unfold Catalog.resolve
  rw [ha]
  cases hn : d.get? name with
  | none => exact ⟨rfl, hc⟩
  | some t => exact ⟨congrArg some (h.shape hc (h.named hn)), h.keep hc (h.named hn)⟩

theorem knowsField (hc : P c) (name path : String) :
    (c.knowsField g name path).1 = (d.get? name).any (g.leads · path) ∧
      P (c.knowsField g name path).2 := by
  obtain ⟨hr, hm⟩ := h.resolve hc name
  have e : c.resolve g name = ((d.get? name).map g.shape, (c.resolve g name).2) := Prod.ext hr rfl
  unfold Catalog.knowsField
  rw [e]
  cases hn : d.get? name with
  | none => exact ⟨rfl, hm⟩
  | some t => exact h.hasPath hm (h.named hn) path

theorem suggestions (hc : P c) (name path : String) :
    (c.suggestions g name path).1 = ((d.get? name).map
      (g.closeFrom · ((path.toList.splitOnP (· == '.')).map String.ofList))).getD [] ∧
      P (c.suggestions g name path).2 := by
  obtain ⟨hr, hm⟩ := h.resolve hc name
  have e : c.resolve g name = ((d.get? name).map g.shape, (c.resolve g name).2) := Prod.ext hr rfl
  unfold Catalog.suggestions
  rw [e]
  cases hn : d.get? name with
  | none => exact ⟨rfl, hm⟩
  | some t => exact h.suggestFrom hm (h.named hn) _

end Steady

end Catalog

end Stencil
