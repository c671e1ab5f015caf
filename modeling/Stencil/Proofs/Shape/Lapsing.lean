import Stencil.Proofs.Shape.Serving

/-!
# Catalogs whose shapes lapse

Kept shapes may lapse one by one, so that a kept type need not have its fields kept. Their names stay:
whatever a kept type leads to has its name bound, and so has whatever a type with a name leads to.
That is all that requests by name rely on, so these change no name and tell of no lapse.
-/

namespace Stencil.Catalog

/-- The catalogs that are made in any way and asked anything, while shapes lapse and catalogs are
guarded against changes. -/
inductive Reachable (g : Graph) : Catalog → Prop
  | build (kind : CatalogKind) (lifetime : Nat) : Reachable g (build kind lifetime)
  | serve {c : Catalog} (h : Reachable g c) (r : Request) : Reachable g (c.serve g r).2
  | guard {c : Catalog} (h : Reachable g c) (readOnly : Bool) : Reachable g { c with readOnly }
  | lapse {c : Catalog} (h : Reachable g c) {shapes : List Shape} (hs : shapes.Sublist c.shapes) :
    Reachable g { c with store := { c.store with shapes } }

/-- Kept shapes are as discovered, and all that kept types and types with names lead to has its name
bound. -/
structure Settled (g : Graph) (c : Catalog) : Prop where
  sound : ∀ s ∈ c.store.shapes, s = g.shape s.type
  kept : ∀ t, c.store.contains t = true → ∀ u, g.Reach t u → Directory.Named c.store.aliases u
  names : Directory.Settled g c.store.aliases

/-- The catalog is settled and has these names. -/
def Bears (g : Graph) (d : Directory) (c : Catalog) : Prop := c.Settled g ∧ c.store.aliases = d

variable {g : Graph} {c : Catalog} {d : Directory}

/-! ## Asking for a type -/

/-- What is discovered now leads to types that are kept, or discovered now as well. -/
theorem named_of_reach {t : Descriptor}
    (hk : ∀ u, c.store.contains u = true → ∀ v, g.Reach u v → Directory.Named c.store.aliases v)
    {u v : Descriptor} (hr : g.Reach u v)
    (hu : c.store.contains u = true ∨ u ∈ c.toDiscover g t) :
    Directory.Named (c.shapeOf g t).2.store.aliases v := by
  have ha := (shapeOf_spec g c t).2.2.2.1
  have old : ∀ {u}, c.store.contains u = true → g.Reach u v →
      Directory.Named (c.shapeOf g t).2.store.aliases v := fun hc hr =>
    ha ▸ (Directory.grows_bindAll _ _).named (hk _ hc _ hr)
  induction hr with
  | refl u =>
    rcases hu with hc | hm
    · exact old hc (.refl u)
    · exact ha ▸ Directory.named_bindAll hm _
  | @step u w v hw hr ih =>
    rcases hu with hc | hm
    · exact old hc (.step hw hr)
    · exact ih (contains_or_mem_of_field hm hw) old

/-- Asking for a type settles a catalog in which only this type may have a name without what it
leads to. -/
theorem settled_shapeOf {t : Descriptor} (hs : ∀ s ∈ c.store.shapes, s = g.shape s.type)
    (hk : ∀ u, c.store.contains u = true → ∀ v, g.Reach u v → Directory.Named c.store.aliases v)
    (hn : ∀ name u, c.store.alias? name = some u →
      u = t ∨ ∀ v, g.Reach u v → Directory.Named c.store.aliases v) :
    Settled g (c.shapeOf g t).2 := by
  obtain ⟨-, -, -, ha, hc, hs'⟩ := shapeOf_spec g c t
  refine ⟨fun s h => (hs' s h).elim (hs s) id, fun u hu v hr => ?_, fun name u hu v hr => ?_⟩
  · exact named_of_reach hk hr (((hc u).1 hu).imp_right And.right)
  · rw [ha] at hu
    rcases Directory.get?_bindAll hu with hu | ⟨hm, -⟩
    · rcases hn name u hu with rfl | hn
      · exact named_of_reach hk hr (contains_or_mem_toDiscover g c u)
      · exact ha ▸ (Directory.grows_bindAll _ _).named (hn v hr)
    · exact named_of_reach hk hr (.inr hm)

/-- What is passed over leads to named records only, so no name is missed. -/
theorem aliases_shapeOf_of_named
    (hk : ∀ u, c.store.contains u = true → ∀ v, g.Reach u v → Directory.Named c.store.aliases v)
    (t : Descriptor) :
    (c.shapeOf g t).2.store.aliases = Directory.bindAll c.store.aliases (g.preorder t) := by
  classical
  let skip : Descriptor → Bool := fun u =>
    decide (∀ v, g.Reach u v → Directory.Named c.store.aliases v)
  have hkept : ∀ u, c.store.contains u = true → skip u = true := fun u hu =>
    decide_eq_true (hk u hu)
  have hnone : ∀ u, false = true → skip u = true := fun u hu => by cases hu
  have hclosed : ∀ u, skip u = true → ∀ v ∈ g.fieldTypes u, skip v = true := by
    intro u hu v hv
    exact decide_eq_true fun w hw => of_decide_eq_true hu w (.step hv hw)
  have hnamed : ∀ u, skip u = true → Directory.Named c.store.aliases u := fun u hu =>
    of_decide_eq_true hu u (.refl u)
  rw [(shapeOf_spec g c t).2.2.2.1, toDiscover, Graph.preorder_eq_visit,
    Graph.bindAll_visit hkept hclosed hnamed, Graph.bindAll_visit hnone hclosed hnamed]

namespace Settled

theorem cleared (g : Graph) (c : Catalog) : Settled g { c with store := c.store.clear } where
  sound _ h := by cases h
  kept _ h := by cases h
  names := Directory.settled_empty

theorem shapeOf (h : Settled g c) (t : Descriptor) : Settled g (c.shapeOf g t).2 :=
  settled_shapeOf h.sound h.kept fun name u hu => .inr (h.names name u hu)

theorem aliases_shapeOf (h : Settled g c) (t : Descriptor) :
    (c.shapeOf g t).2.store.aliases = Directory.bindAll c.store.aliases (g.preorder t) :=
  aliases_shapeOf_of_named h.kept t

/-- A name that is given in addition leaves the names of what is kept bound. -/
theorem named_setAlias (h : Settled g c) (name : String) (t : Descriptor) :
    ∀ u, c.store.contains u = true → ∀ v, g.Reach u v →
      Directory.Named (c.store.aliases.set name t) v :=
  fun u hu v hr => (h.kept u hu v hr).set name t

theorem named_shapeOf (h : Settled g c) (name : String) (t : Descriptor) :
    Settled g ({ c with store := c.store.setAlias name t true }.shapeOf g t).2 := by
  refine settled_shapeOf h.sound (h.named_setAlias name t) fun n u hu => ?_
  exact (eq_or_alias?_of_setAlias hu).imp_right fun hu v hr => (h.names n u hu v hr).set name t

theorem lapse (h : Settled g c) {shapes : List Shape} (hs : shapes.Sublist c.shapes) :
    Settled g { c with store := { c.store with shapes } } where
  sound s hm := h.sound s (hs.subset hm)
  kept t ht := by
    obtain ⟨s, hm, e⟩ := contains_iff.1 ht
    exact h.kept t (contains_iff.2 ⟨s, hs.subset hm, e⟩)
  names := h.names

/-! ## Requests by name -/

theorem look (h : Bears g d c) {t : Descriptor} (ht : ∀ u, g.Reach t u → d.Named u) :
    Bears g d (c.shapeOf g t).2 := by
  refine ⟨h.1.shapeOf t, ?_⟩
  -- Nothing is bound, since all that is discovered has its name bound already.
  rw [(shapeOf_spec g c t).2.2.2.1, h.2]
  refine Directory.bindAll_of_named fun u hu => ?_
  obtain ⟨v, hv, hr⟩ := Graph.reach_of_mem_visit hu
  rw [List.mem_singleton.1 hv] at hr
  exact ht u hr

theorem steady (hs : d.Settled g) : Steady g d (Bears g d) fun t => ∀ u, g.Reach t u → d.Named u where
  names h := h.2
  named hn := hs _ _ hn
  field ht hu := fun v hv => ht v (.step hu hv)
  shape h _ := shapeOf_fst_of_sound h.1.sound _
  keep h ht := look h ht

theorem serve (h : Settled g c) (r : Request) : Settled g (c.serve g r).2 := by
  have hc : Bears g c.store.aliases c := ⟨h, rfl⟩
  cases r with
  | shapeOf t => exact h.shapeOf t
  | register name t =>
    rcases serve_register_snd g c name t with e | e <;> rw [e]
    · exact h
    · exact h.named_shapeOf name t
  | resolve name => exact ((steady h.names).resolve hc name).2.1
  | contains name => exact h
  | knowsField name path => exact ((steady h.names).knowsField hc name path).2.1
  | suggestions name path => exact ((steady h.names).suggestions hc name path).2.1
  | clear =>
    rcases serve_clear_snd g c with e | e <;> rw [e]
    · exact h
    · exact cleared g c

end Settled

theorem Reachable.settled (h : Reachable g c) : Settled g c := by
  induction h with
  | build kind lifetime => exact .cleared g (Catalog.build kind lifetime)
  | serve _ r ih => exact ih.serve r
  | guard _ _ ih => exact ⟨ih.sound, ih.kept, ih.names⟩
  | lapse _ hs ih => exact ih.lapse hs

end Stencil.Catalog
