import Stencil.Proofs.Shape.Mirror
import Stencil.Proofs.Shape.Steady

/-!
# A catalog answers like its directory

A walk along fields from a type with a name asks only for shapes of types with names, so it leaves
the directory as it is. Request by request the catalog goes on mirroring the directory, and no reply
tells whether shapes are kept.
-/

namespace Stencil

namespace Catalog

variable {g : Graph} {c : Catalog} {d : Directory}

/-! ## What requests keep -/

section
variable {P : Catalog → Prop} (hP : ∀ c t, P c → P (c.shapeOf g t).2)
include hP

theorem walk_keeps (hc : P c) (s : Shape) (names : List String) : P (c.walk g s names).2 := by
  induction names generalizing c s with
  | nil => exact hc
  | cons name rest ih =>
    rw [walk]
    split
    · exact ih (hP _ _ hc) _
    · exact hc

theorem suggestFrom_keeps (hc : P c) (s : Shape) (words : List String) :
    P (c.suggestFrom g s words).2 := by
  induction words generalizing c s with
  | nil => exact hc
  | cons word rest ih =>
    cases rest with
    | nil => exact hc
    | cons next rest =>
      rw [suggestFrom]
      split
      · exact ih (hP _ _ hc) _
      · exact hc
      · exact fun h => by cases h

theorem resolve_keeps (hc : P c) (name : String) : P (c.resolve g name).2 := by
  unfold resolve
  split
  · exact hP _ _ hc
  · exact hc

theorem knowsField_keeps (hc : P c) (name path : String) : P (c.knowsField g name path).2 := by
  have hr := resolve_keeps hP hc name
  unfold knowsField
  generalize c.resolve g name = answer at hr
  obtain ⟨found, c'⟩ := answer
  cases found with
  | none => exact hr
  | some s =>
    simp only [hasPath]
    split
    · exact hr
    · exact walk_keeps hP hr ..

theorem suggestions_keeps (hc : P c) (name path : String) : P (c.suggestions g name path).2 := by
  have hr := resolve_keeps hP hc name
  unfold suggestions
  generalize c.resolve g name = answer at hr
  obtain ⟨found, c'⟩ := answer
  cases found with
  | none => exact hr
  | some s => exact suggestFrom_keeps hP hr ..

/-- Beside registering and clearing, requests only ask for types. -/
theorem serve_keeps (hreg : ∀ c name t, P c → P (c.serve g (.register name t)).2)
    (hclear : ∀ c, P c → P (c.serve g .clear).2) (hc : P c) (r : Request) : P (c.serve g r).2 := by
  cases r with
  | shapeOf t => exact hP c t hc
  | register name t => exact hreg c name t hc
  | resolve name => exact resolve_keeps hP hc name
  | contains name => exact hc
  | knowsField name path => exact knowsField_keeps hP hc name path
  | suggestions name path => exact suggestions_keeps hP hc name path
  | clear => exact hclear c hc

end

theorem readOnly_shapeOf (t : Descriptor) : (c.shapeOf g t).2.readOnly = c.readOnly :=
  (shapeOf_spec g c t).2.1

theorem readOnly_kept (b : Bool) (c : Catalog) (t : Descriptor) (h : c.readOnly = b) :
    (c.shapeOf g t).2.readOnly = b := (readOnly_shapeOf t).trans h

namespace Mirrors

/-! ## Requests by name -/

theorem look (h : Mirrors g c d) {t : Descriptor} (ht : ∀ u, g.Reach t u → d.Named u) :
    Mirrors g (c.shapeOf g t).2 d := by
  have hd : d.bindAll (g.preorder t) = d :=
    Directory.bindAll_of_named fun u hu => ht u (Graph.mem_preorder.1 hu)
  exact hd ▸ h.shapeOf t

theorem steady (hs : d.Settled g) :
    Steady g d (Mirrors g · d) fun t => ∀ u, g.Reach t u → d.Named u where
  names h := h.names
  named hn := hs _ _ hn
  field ht hu := fun v hv => ht v (.step hu hv)
  shape h _ := h.shapeOf_fst _
  keep h ht := h.look ht

section

variable (h : Mirrors g c d) (hs : d.Settled g)
include h hs

theorem resolve (name : String) : (c.resolve g name).1 = (d.get? name).map g.shape ∧
    Mirrors g (c.resolve g name).2 d :=
  (steady hs).resolve h name

theorem knowsField (name path : String) :
    (c.knowsField g name path).1 = (d.get? name).any (g.leads · path) ∧
      Mirrors g (c.knowsField g name path).2 d :=
  (steady hs).knowsField h name path

theorem suggestions (name path : String) :
    (c.suggestions g name path).1 = ((d.get? name).map
      (g.closeFrom · ((path.toList.splitOnP (· == '.')).map String.ofList))).getD [] ∧
      Mirrors g (c.suggestions g name path).2 d :=
  (steady hs).suggestions h name path

end

end Mirrors

/-! ## Any requests -/

/-- One request: the reply is the directory's, and the catalog goes on mirroring it. -/
theorem Mirrors.serve (h : Mirrors g c d) (hs : d.Settled g) (hw : c.readOnly = false) (r : Request) :
    (c.serve g r).1 = (Directory.serve g d r).1 ∧
      Mirrors g (c.serve g r).2 (Directory.serve g d r).2 ∧ (c.serve g r).2.readOnly = false := by
  cases r with
  | shapeOf t =>
    exact ⟨congrArg Reply.shape (h.shapeOf_fst t), h.shapeOf t, (readOnly_shapeOf t).trans hw⟩
  | register name t =>
    rw [serve_register_of_writable hw]
    simp only [Directory.serve]
    cases name.isEmpty with
    | true => exact ⟨rfl, h, hw⟩
    | false =>
      have h' := h.setAlias name t
      exact ⟨congrArg Reply.shape (h'.shapeOf_fst t), h'.shapeOf t, (readOnly_shapeOf t).trans hw⟩
  | resolve name =>
    obtain ⟨hr, hm⟩ := h.resolve hs name
    exact ⟨congrArg Reply.resolved hr, hm, resolve_keeps (readOnly_kept false) hw name⟩
  | contains name =>
    have ha : c.store.alias? name = d.get? name := congrArg (·.get? name) h.names
    exact ⟨congrArg (fun o : Option Descriptor => Reply.truth o.isSome) ha, h, hw⟩
  | knowsField name path =>
    obtain ⟨hr, hm⟩ := h.knowsField hs name path
    exact ⟨congrArg Reply.truth hr, hm, knowsField_keeps (readOnly_kept false) hw name path⟩
  | suggestions name path =>
    obtain ⟨hr, hm⟩ := h.suggestions hs name path
    exact ⟨congrArg Reply.fields hr, hm, suggestions_keeps (readOnly_kept false) hw name path⟩
  | clear =>
    rw [serve_clear_of_writable hw]
    exact ⟨rfl, .cleared g c, hw⟩

theorem Mirrors.replies (h : Mirrors g c d) (hs : d.Settled g) (hw : c.readOnly = false)
    (rs : List Request) : c.replies g rs = d.replies g rs := by
  induction rs generalizing c d with
  | nil => rfl
  | cons r rs ih =>
    obtain ⟨hr, hm, hw⟩ := h.serve hs hw r
    rw [Catalog.replies, Directory.replies, hr, ih hm (hs.serve r) hw]

/-- A catalog of any kind and lifetime answers any requests as its directory does, so the kinds
are not told apart. -/
theorem replies_build (g : Graph) (kind : CatalogKind) (lifetime : Nat) (rs : List Request) :
    (build kind lifetime).replies g rs = Directory.replies g .empty rs :=
  (Mirrors.empty g _).replies Directory.settled_empty rfl rs

/-- A type cannot be bound to the empty name. -/
theorem replies_ne_of_empty_name :
    (build .standard 0).replies ⟨[[]]⟩ [.register "" (.record "Order" 0), .contains ""] ≠
      [.shape (Graph.shape ⟨[[]]⟩ (.record "Order" 0)),
        .truth ((Table.empty.set "" (Descriptor.record "Order" 0)).contains "")] := by
  decide

end Catalog

end Stencil
