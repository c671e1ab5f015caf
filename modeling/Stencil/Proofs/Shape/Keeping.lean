import Mathlib.Data.List.Nodup
import Stencil.Proofs.Shape.Serving

/-!
# What a catalog keeps

A catalog whose shapes stay keeps each type that it was asked for, once, with all that its fields
lead to; whatever has a name is kept, and whatever is kept and is a record has its name bound. It
discovers what it keeps in addition and nothing else, so that a kept type is not discovered again.
-/

namespace Stencil.Catalog

def served (g : Graph) (c : Catalog) (rs : List Request) : Catalog :=
  rs.foldl (fun c r => (c.serve g r).2) c

/-- The kept types that the earlier catalog does not keep. -/
def newlyKept (c c' : Catalog) : List Descriptor :=
  (c'.shapes.map (·.type)).filter (!c.store.contains ·)

/-- Kept types are closed under fields, hold all that names stand for, and have their names bound;
each has one shape, whose fields are the discovered ones. -/
structure Coherent (g : Graph) (c : Catalog) : Prop where
  closed : ∀ t, c.store.contains t = true → ∀ u ∈ g.fieldTypes t, c.store.contains u = true
  target : ∀ name t, c.store.alias? name = some t → c.store.contains t = true
  named : ∀ t, c.store.contains t = true → t.isLeaf = false → c.contains t.name = true
  once : ∀ t, (c.shapes.map (·.type)).count t = if c.store.contains t then 1 else 0
  discovered : ∀ s ∈ c.shapes, s.fields = (g.discover s.type).fields

/-- The later catalog keeps these types in addition, for which it made one discovery each. -/
structure Grown (g : Graph) (c c' : Catalog) (ts : List Descriptor) : Prop where
  nodup : ts.Nodup
  fresh : ∀ t ∈ ts, c.store.contains t = false
  shapes : c'.store.shapes = c.store.shapes ++ ts.map g.shape
  discoveries : c'.discoveries = c.discoveries + ts.length

/-- What has a name or is kept in the earlier catalog `c` has one or is kept in the later one. -/
structure Retains (c' c : Catalog) : Prop where
  retention : c'.store.retention = c.store.retention
  names : ∀ name, c.contains name = true → c'.contains name = true
  types : ∀ t, c.store.contains t = true → c'.store.contains t = true

/-- The catalogs differ at most in how often they discovered. -/
structure SameButCount (c c' : Catalog) : Prop where
  store : c.store = c'.store
  readOnly : c.readOnly = c'.readOnly

variable {g : Graph} {c c' c'' : Catalog} {d : Directory} {ts us : List Descriptor}

theorem contains_iff_mem {t : Descriptor} :
    c.store.contains t = true ↔ t ∈ c.store.shapes.map (·.type) := by
  rw [contains_iff, List.mem_map]

/-! ## Growing -/

namespace Grown

theorem refl (g : Graph) (c : Catalog) : Grown g c c [] where
  nodup := .nil
  fresh _ h := by cases h
  shapes := by rw [List.map_nil, List.append_nil]
  discoveries := rfl

theorem types (h : Grown g c c' ts) :
    c'.store.shapes.map (·.type) = c.store.shapes.map (·.type) ++ ts := by
  rw [h.shapes, List.map_append, List.map_map]
  exact congrArg _ (List.map_id ts)

theorem contains_iff (h : Grown g c c' ts) {t : Descriptor} :
    c'.store.contains t = true ↔ c.store.contains t = true ∨ t ∈ ts := by
  rw [contains_iff_mem, h.types, List.mem_append, contains_iff_mem]

theorem trans (h : Grown g c c' ts) (h' : Grown g c' c'' us) : Grown g c c'' (ts ++ us) where
  nodup := by
    refine List.nodup_append.2 ⟨h.nodup, h'.nodup, ?_⟩
    rintro t ht u hu rfl
    have := h.contains_iff.2 (.inr ht)
    rw [h'.fresh t hu] at this
    cases this
  fresh t ht := by
    rcases List.mem_append.1 ht with ht | ht
    · exact h.fresh t ht
    · rw [Bool.eq_false_iff]
      intro hc
      have := h.contains_iff.2 (.inl hc)
      rw [h'.fresh t ht] at this
      cases this
  shapes := by rw [h'.shapes, h.shapes, List.append_assoc, ← List.map_append]
  discoveries := by rw [h'.discoveries, h.discoveries, List.length_append, Nat.add_assoc]

theorem nodup_types (h : Grown g c c' ts) (hn : (c.store.shapes.map (·.type)).Nodup) :
    (c'.store.shapes.map (·.type)).Nodup := by
  rw [h.types, List.nodup_append]
  refine ⟨hn, h.nodup, ?_⟩
  rintro t ht u hu rfl
  have := contains_iff_mem.2 ht
  rw [h.fresh t hu] at this
  cases this

theorem newlyKept_eq (h : Grown g c c' ts) : newlyKept c c' = ts := by
  have hold : (c.store.shapes.map (·.type)).filter (!c.store.contains ·) = [] := by
    refine List.filter_eq_nil_iff.2 fun t ht => ?_
    rw [contains_iff_mem.2 ht]
    exact Bool.false_ne_true
  have hnew : ts.filter (!c.store.contains ·) = ts := by
    refine List.filter_eq_self.2 fun t ht => ?_
    rw [h.fresh t ht]
    rfl
  rw [newlyKept, Catalog.shapes, h.types, List.filter_append, hold, hnew, List.nil_append]

end Grown

theorem shapes_addAll (hk : c.store.retention = .kept) (ts : List Descriptor) :
    (c.addAll g ts).store.shapes = c.store.shapes ++ ts.map g.shape := by
  induction ts generalizing c with
  | nil => rw [addAll_nil, List.map_nil, List.append_nil]
  | cons t ts ih =>
    rw [addAll_cons, ih ((retention_add _).trans hk), shapes_add, if_pos hk, List.append_assoc]
    rfl

theorem grown_shapeOf (hk : c.store.retention = .kept) (t : Descriptor) :
    Grown g c (c.shapeOf g t).2 (c.toDiscover g t) where
  nodup := Graph.nodup_visit [t]
  fresh _ hu := (Graph.mem_of_mem_visit hu).2
  shapes := by rw [shapeOf_snd, shapes_addAll hk]
  discoveries := (shapeOf_spec g c t).2.2.1

theorem retention_shapeOf (t : Descriptor) :
    (c.shapeOf g t).2.store.retention = c.store.retention :=
  (shapeOf_spec g c t).1

/-! ## Coherence -/

theorem Coherent.mirrors (h : Coherent g c) : Mirrors g c c.store.aliases where
  names := rfl
  sound s hs := by
    have hf : s.fields = (g.shape s.type).fields := h.discovered s hs
    cases s
    exact congrArg (Shape.mk _) hf
  closed := h.closed
  named t ht := by
    cases hl : t.isLeaf with
    | true => exact .inl hl
    | false => exact .inr (h.named t ht hl)

theorem Coherent.nodup (h : Coherent g c) : (c.store.shapes.map (·.type)).Nodup :=
  List.nodup_iff_count_eq_one.2 fun t ht => (h.once t).trans (if_pos (contains_iff_mem.2 ht))

theorem Mirrors.coherent (h : Mirrors g c d) (hn : (c.store.shapes.map (·.type)).Nodup)
    (ht : ∀ name t, c.store.alias? name = some t → c.store.contains t = true) : Coherent g c where
  closed := h.closed
  target := ht
  named t hc hl := by
    have hd : d.contains t.name = true := (h.named t hc).resolve_left (by rw [hl]; exact Bool.false_ne_true)
    rw [Catalog.contains, Store.alias?, h.names]
    exact hd
  once t := by
    rw [Catalog.shapes, hn.count]
    simp only [contains_iff_mem]
  discovered s hs := congrArg Shape.fields (h.sound s hs)

theorem Coherent.cleared (g : Graph) (c : Catalog) :
    Coherent g { c with store := c.store.clear } :=
  (Mirrors.cleared g c).coherent .nil fun _ _ h => by cases h

/-- Asking for a type makes a catalog coherent in which only this type may have a name without being
kept. -/
theorem Mirrors.coherent_shapeOf (h : Mirrors g c d) (hk : c.store.retention = .kept)
    (hn : (c.store.shapes.map (·.type)).Nodup) {t : Descriptor}
    (ht : ∀ name u, c.store.alias? name = some u → u = t ∨ c.store.contains u = true) :
    Coherent g (c.shapeOf g t).2 := by
  have hg := grown_shapeOf (g := g) hk t
  refine (h.shapeOf t).coherent (hg.nodup_types hn) fun name u hu => hg.contains_iff.2 ?_
  -- A name was given before, or by a discovery.
  rw [Store.alias?, (shapeOf_spec g c t).2.2.2.1] at hu
  rcases Directory.get?_bindAll hu with hu | ⟨hu, -⟩
  · rcases ht name u hu with rfl | hc
    · exact contains_or_mem_toDiscover g c u
    · exact .inl hc
  · exact .inr hu

/-! ## Requests -/

theorem shapeOf_of_contains {t : Descriptor} (h : c.store.contains t = true) :
    (c.shapeOf g t).2 = c := by
  have ht : ¬ (t ∈ t :: g.memberTypes ∧ c.store.contains t = false) := fun h' => by
    rw [h] at h'
    cases h'.2
  rw [shapeOf_snd, toDiscover, Graph.visit_cons_of_not_fresh ht, Graph.visit_nil, addAll_nil]

/-- A coherent catalog is left as it is by requests for what it keeps. -/
theorem Coherent.steady (h : Coherent g c) :
    Steady g c.store.aliases (· = c) (c.store.contains · = true) where
  names := by rintro _ rfl; rfl
  named hn := h.target _ _ hn
  field ht hu := h.closed _ ht _ hu
  shape := by rintro _ t rfl -; exact h.mirrors.shapeOf_fst t
  keep := by rintro _ t rfl ht; exact shapeOf_of_contains ht

/-- A coherent catalog with lasting shapes after a request: it has grown, or it was cleared. -/
structure Succeeds (g : Graph) (c c' : Catalog) (r : Request) : Prop where
  coherent : Coherent g c'
  kept : c'.store.retention = .kept
  grown : (∃ ts, Grown g c c' ts) ∨ r = .clear ∧ c'.shapes = [] ∧ c'.discoveries = c.discoveries

/-- The name that is given first lacks its type until this is asked for. -/
theorem Coherent.named_shapeOf (h : Coherent g c) (hk : c.store.retention = .kept) (name : String)
    (t : Descriptor) :
    Succeeds g c ({ c with store := c.store.setAlias name t true }.shapeOf g t).2 (.register name t) := by
  let named : Catalog := { c with store := c.store.setAlias name t true }
  have hg := grown_shapeOf (g := g) (c := named) hk t
  refine ⟨(h.mirrors.setAlias name t).coherent_shapeOf hk h.nodup fun n u hu => ?_,
    (retention_shapeOf t).trans hk, .inl ⟨_, hg.nodup, hg.fresh, hg.shapes, hg.discoveries⟩⟩
  exact (eq_or_alias?_of_setAlias hu).imp_right (h.target n u)

theorem Coherent.serve (h : Coherent g c) (hk : c.store.retention = .kept) (r : Request) :
    Succeeds g c (c.serve g r).2 r := by
  have same : ∀ {c'}, c' = c → Succeeds g c c' r := by
    rintro _ rfl
    exact ⟨h, hk, .inl ⟨[], .refl g _⟩⟩
  cases r with
  | shapeOf t =>
    exact ⟨h.mirrors.coherent_shapeOf hk h.nodup fun name u hu => .inr (h.target name u hu),
      (retention_shapeOf t).trans hk, .inl ⟨_, grown_shapeOf hk t⟩⟩
  | register name t =>
    rcases serve_register_snd g c name t with e | e
    · exact same e
    · exact e ▸ h.named_shapeOf hk name t
  | resolve name => exact same (h.steady.resolve rfl name).2
  | contains name => exact same rfl
  | knowsField name path => exact same (h.steady.knowsField rfl name path).2
  | suggestions name path => exact same (h.steady.suggestions rfl name path).2
  | clear =>
    rcases serve_clear_snd g c with e | e
    · exact same e
    · exact e ▸ ⟨.cleared g c, hk, .inr ⟨rfl, rfl, rfl⟩⟩

/-! ## What is retained -/

namespace Retains

theorem refl (c : Catalog) : Retains c c := ⟨rfl, fun _ h => h, fun _ h => h⟩

theorem trans (h : Retains c' c) (h' : Retains c'' c') : Retains c'' c :=
  ⟨h'.retention.trans h.retention, fun n hn => h'.names n (h.names n hn),
    fun t ht => h'.types t (h.types t ht)⟩

theorem named (h : Retains c' c) {t : Descriptor} (ht : Directory.Named c.store.aliases t) :
    Directory.Named c'.store.aliases t :=
  ht.imp_right (h.names t.name)

end Retains

theorem retains_shapeOf (g : Graph) (c : Catalog) (t : Descriptor) : Retains (c.shapeOf g t).2 c := by
  obtain ⟨hr, -, -, ha, hc, -⟩ := shapeOf_spec g c t
  refine ⟨hr, fun name hn => ?_, fun u hu => (hc u).2 (.inl hu)⟩
  have hg := (Directory.grows_bindAll (c.toDiscover g t) c.store.aliases).contains hn
  rwa [← ha] at hg

/-- Only clearing takes something from a catalog. -/
theorem Retains.serve (h : Retains c' c) {r : Request} (hr : r ≠ .clear) :
    Retains (c'.serve g r).2 c := by
  have hshape : ∀ c' t, Retains c' c → Retains (c'.shapeOf g t).2 c := fun c' t h =>
    h.trans (retains_shapeOf g c' t)
  cases r with
  | clear => exact absurd rfl hr
  | register name t =>
    rcases serve_register_snd g c' name t with e | e <;> rw [e]
    · exact h
    · refine hshape _ t ⟨h.retention, fun n hn => ?_, h.types⟩
      show (Table.set _ name t).contains n = true
      rw [Table.contains_set]
      exact Bool.or_eq_true_iff.2 (.inr (h.names n hn))
  | shapeOf t => exact hshape c' t h
  | resolve name => exact resolve_keeps hshape h name
  | contains name => exact h
  | knowsField name path => exact knowsField_keeps hshape h name path
  | suggestions name path => exact suggestions_keeps hshape h name path

/-- Without lasting shapes the discovery of a named record shows in the count only. -/
theorem store_add (hk : c.store.retention = .none) {t : Descriptor}
    (hn : Directory.Named c.store.aliases t) : (c.add (g.shape t)).store = c.store := by
  have hs : (c.add (g.shape t)).store.shapes = c.store.shapes := by
    rw [shapes_add, if_neg (by rw [hk]; exact Retention.noConfusion)]
  have ha : (c.add (g.shape t)).store.aliases = c.store.aliases := by
    rw [aliases_add, Directory.bind_of_named hn]
  calc (c.add (g.shape t)).store
      = ⟨(c.add (g.shape t)).store.retention, (c.add (g.shape t)).store.shapes,
          (c.add (g.shape t)).store.aliases⟩ := rfl
    _ = c.store := by rw [retention_add, hs, ha]

theorem store_addAll (hk : c.store.retention = .none)
    (hn : ∀ t ∈ ts, Directory.Named c.store.aliases t) : (c.addAll g ts).store = c.store := by
  induction ts generalizing c with
  | nil => rfl
  | cons t ts ih =>
    obtain ⟨ht, hn⟩ := List.forall_mem_cons.1 hn
    have hs := store_add (g := g) hk ht
    rw [addAll_cons, ih (hs ▸ hk) (hs ▸ hn), hs]

/-! ## Runs -/

theorem Coherent.served (h : Coherent g c) (hk : c.store.retention = .kept) (rs : List Request) :
    Coherent g (c.served g rs) ∧ (c.served g rs).store.retention = .kept := by
  induction rs generalizing c with
  | nil => exact ⟨h, hk⟩
  | cons r rs ih =>
    obtain ⟨hc, hk', -⟩ := h.serve hk r
    exact ih hc hk'

theorem Succeeds.discoveries {r : Request} (h : Succeeds g c c' r) :
    c'.discoveries = c.discoveries + (newlyKept c c').length := by
  rcases h.grown with ⟨ts, hg⟩ | ⟨-, hs, hd⟩
  · rw [hg.newlyKept_eq, hg.discoveries]
  · rw [newlyKept, hs, hd]
    rfl

theorem Coherent.grown_served (h : Coherent g c) (hk : c.store.retention = .kept) {rs : List Request}
    (hr : .clear ∉ rs) : ∃ ts, Grown g c (c.served g rs) ts := by
  induction rs generalizing c with
  | nil => exact ⟨[], .refl g c⟩
  | cons r rs ih =>
    obtain ⟨hc, hk', hg⟩ := h.serve hk r
    rcases hg with ⟨ts, hg⟩ | ⟨rfl, -⟩
    · obtain ⟨us, hg'⟩ := ih hc hk' fun hm => hr (List.mem_cons_of_mem _ hm)
      exact ⟨ts ++ us, hg.trans hg'⟩
    · exact absurd List.mem_cons_self hr

/-- A catalog whose shapes stay is coherent after any requests. Each request discovers just what the
catalog keeps in addition, and up to the next clearing nothing that is kept is discovered again. -/
theorem coherent_served (g : Graph) (kind : CatalogKind) (lifetime : Nat)
    (hk : kind.retention lifetime = .kept) (rs : List Request) :
    let c := (build kind lifetime).served g rs
    Coherent g c ∧
      (∀ r, (c.serve g r).2.discoveries = c.discoveries + (newlyKept c (c.serve g r).2).length) ∧
      ∀ rs', .clear ∉ rs' → c.shapes <+: (c.served g rs').shapes ∧
        (c.served g rs').discoveries = c.discoveries + (newlyKept c (c.served g rs')).length := by
  intro c
  obtain ⟨hc, hk⟩ : Coherent g c ∧ c.store.retention = .kept :=
    (Coherent.cleared g (build kind lifetime)).served hk rs
  refine ⟨hc, fun r => (hc.serve hk r).discoveries, fun rs' hr => ?_⟩
  obtain ⟨ts, hg⟩ := hc.grown_served hk hr
  exact ⟨⟨_, hg.shapes.symm⟩, by rw [hg.newlyKept_eq, hg.discoveries]⟩

/-- Two records in a circle are both discovered with the first name. -/
theorem coherent_served_circle :
    let a := Descriptor.record "A" 0
    let b := Descriptor.record "B" 1
    let g : Graph := ⟨[[⟨"next", false, b⟩], [⟨"next", false, a⟩]]⟩
    let c := (build .concurrent 0).served g [.register "alias" a]
    c.discoveries = 2 ∧ Coherent g c := by
  intro a b g c
  have ha : (g.shape a).fields.values = [b] := by decide
  have hb : (g.shape b).fields.values = [a] := by decide
  refine ⟨?_, (coherent_served g .concurrent 0 rfl [.register "alias" a]).1⟩
  show (explore g (a :: g.memberTypes) [a] _).discoveries = 2
  rw [explore, if_pos (by decide), ha, List.cons_append, explore, if_pos (by decide), hb,
    List.nil_append, List.append_nil, explore, if_neg (by decide), explore]
  rfl

end Stencil.Catalog
