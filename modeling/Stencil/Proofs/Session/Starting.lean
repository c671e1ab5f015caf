import Stencil.Proofs.Shape.Alike
import Stencil.Proofs.Shape.Keeping
import Stencil.Proofs.Shape.Registering
import Stencil.Session.Basic

/-!
# Starting a session

A session that is started asks a catalog for the types of its globals, if at all. Whichever shapes are
kept at that time, the names come out as if every type were visited: a name that was bound stays, and
any other name is bound as in an empty catalog.
-/

namespace Stencil

namespace Directory

theorem get?_bind (d : Directory) (t : Descriptor) (n : String) :
    (d.bind t).get? n = (d.get? n).or ((bind .empty t).get? n) := by
  unfold bind
  cases t.isLeaf with
  | true => exact (Option.or_none).symm
  | false =>
    simp only [Bool.false_eq_true, if_false, Table.get?_setNew, Table.get?_empty, and_true]
    by_cases hn : n = t.name
    · subst hn
      cases d.get? t.name <;> simp
    · simp [hn]

theorem get?_bindAll_eq (d : Directory) (ts : List Descriptor) (n : String) :
    (d.bindAll ts).get? n = (d.get? n).or ((bindAll .empty ts).get? n) := by
  induction ts generalizing d with
  | nil => exact (Option.or_none).symm
  | cons t ts ih =>
    show (bindAll (d.bind t) ts).get? n = (d.get? n).or ((bindAll (bind .empty t) ts).get? n)
    rw [ih, ih (bind .empty t), get?_bind, Option.or_assoc]

end Directory

namespace Catalog

variable {g : Graph} {c c' : Catalog}

/-! ## Asking for types in turn -/

/-- All that the types lead to has its name bound, and where shapes stay the types are kept. -/
structure Covers (g : Graph) (c : Catalog) (ts : List Descriptor) : Prop where
  named : ∀ t ∈ ts, ∀ u, g.Reach t u → Directory.Named c.store.aliases u
  kept : c.store.retention = .kept → ∀ t ∈ ts, c.store.contains t = true

theorem Bears.shapesOf {d : Directory} (h : Bears g d c) (ts : List Descriptor) :
    Bears g (d.bindAll (ts.flatMap g.preorder)) (c.shapesOf g ts) := by
  induction ts generalizing c d with
  | nil => exact h
  | cons t ts ih =>
    have ht : Bears g (d.bindAll (g.preorder t)) (c.shapeOf g t).2 :=
      ⟨h.1.shapeOf t, h.2 ▸ h.1.aliases_shapeOf t⟩
    rw [List.flatMap_cons, Directory.bindAll_append]
    exact ih ht

theorem Alike.shapesOf (h : Alike g c c') (ts : List Descriptor) :
    Alike g (c.shapesOf g ts) (c'.shapesOf g ts) := by
  induction ts generalizing c c' with
  | nil => exact h
  | cons t ts ih => exact ih (h.serve (.shapeOf t)).2

theorem retains_shapesOf (g : Graph) (c : Catalog) (ts : List Descriptor) :
    (c.shapesOf g ts).Retains c := by
  induction ts generalizing c with
  | nil => exact .refl c
  | cons t ts ih => exact (retains_shapeOf g c t).trans (ih (c.shapeOf g t).2)

theorem readOnly_shapesOf (g : Graph) (c : Catalog) (ts : List Descriptor) :
    (c.shapesOf g ts).readOnly = c.readOnly := by
  induction ts generalizing c with
  | nil => rfl
  | cons t ts ih => exact (ih (c.shapeOf g t).2).trans (readOnly_shapeOf t)

theorem contains_shapesOf (hk : c.store.retention = .kept) {ts : List Descriptor} {t : Descriptor}
    (h : t ∈ ts) : (c.shapesOf g ts).store.contains t = true := by
  induction ts generalizing c with
  | nil => cases h
  | cons u ts ih =>
    rcases List.mem_cons.1 h with rfl | h
    · have hc := (shapeOf_spec g c t).2.2.2.2.1 t
      exact (retains_shapesOf g _ ts).types t
        (hc.2 ((contains_or_mem_toDiscover g c t).imp_right fun hm => ⟨hk, hm⟩))
    · exact ih ((retention_shapeOf u).trans hk) h

theorem covers_shapesOf (h : c.Settled g) (ts : List Descriptor) : (c.shapesOf g ts).Covers g ts where
  named t ht u hr := by
    rw [(Bears.shapesOf ⟨h, rfl⟩ ts).2]
    exact Directory.named_bindAll (List.mem_flatMap.2 ⟨t, ht, Graph.mem_preorder.2 hr⟩) _
  kept hk _ ht := contains_shapesOf ((retains_shapesOf g c ts).retention.symm.trans hk) ht

theorem Retains.covers (h : c'.Retains c) {ts : List Descriptor} (hc : c.Covers g ts) :
    c'.Covers g ts where
  named t ht u hr := h.named (hc.named t ht u hr)
  kept hk t ht := h.types t (hc.kept (h.retention.symm.trans hk) t ht)

/-- Types that are kept need not be discovered. -/
theorem shapesOf_of_contains {ts : List Descriptor} (h : ∀ t ∈ ts, c.store.contains t = true) :
    c.shapesOf g ts = c := by
  induction ts with
  | nil => rfl
  | cons t ts ih =>
    obtain ⟨ht, hts⟩ := List.forall_mem_cons.1 h
    have hs : (c.shapeOf g t).2 = c := shapeOf_of_contains ht
    show (c.shapeOf g t).2.shapesOf g ts = c
    rw [hs, ih hts]

theorem store_shapesOf (hk : c.store.retention = .none) {ts : List Descriptor}
    (h : ∀ t ∈ ts, ∀ u, g.Reach t u → Directory.Named c.store.aliases u) :
    (c.shapesOf g ts).store = c.store := by
  induction ts generalizing c with
  | nil => rfl
  | cons t ts ih =>
    obtain ⟨ht, hts⟩ := List.forall_mem_cons.1 h
    have hs : (c.shapeOf g t).2.store = c.store := by
      rw [shapeOf_snd]
      refine store_addAll hk fun u hu => ?_
      obtain ⟨v, hv, hr⟩ := Graph.reach_of_mem_visit hu
      exact ht u (List.mem_singleton.1 hv ▸ hr)
    exact (ih (hs ▸ hk) (hs ▸ hts)).trans hs

end Catalog

namespace Session

variable {g : Graph} {c c' : Catalog}

/-- The types that a session asks for when it is started. -/
def registered (source : GlobalSource) (settings : Settings) : List Descriptor :=
  if settings.registersTypes then source.types else []

/-- What a session binds when it is started over an empty catalog. -/
def ownNames (g : Graph) (source : GlobalSource) (settings : Settings) : Directory :=
  Directory.bindAll .empty ((registered source settings).flatMap g.preorder)

theorem ownNames_of_registers {settings : Settings} (h : settings.registersTypes = true)
    (source : GlobalSource) : ownNames g source settings = source.directory g := by
  rw [ownNames, registered, if_pos h]
  rfl

theorem get?_ownNames {source : GlobalSource} {settings : Settings}
    (hreg : settings.registersTypes = true) {t : Descriptor} (ht : source.types = [t])
    (hf : ∀ u ∈ g.fieldTypes t, u = t) (hl : t.isLeaf = false) (n : String) :
    (ownNames g source settings).get? n = if n = t.name then some t else none := by
  have honly : ∀ u, source.LeadsTo g u → u = t := by
    rintro u ⟨v, hv, hr⟩
    rw [ht, List.mem_singleton] at hv
    subst hv
    exact hr.eq_of_own hf
  have hd : source.Distinct g := fun u v hu hv _ _ _ => (honly u hu).trans (honly v hv).symm
  have hm : t ∈ source.types := ht ▸ List.mem_singleton_self t
  rw [ownNames_of_registers hreg]
  by_cases hn : n = t.name
  · rw [if_pos hn, hn]
    exact GlobalSource.get?_directory hd (.of_mem hm) hl
  · rw [if_neg hn, Option.eq_none_iff_forall_ne_some]
    intro u hu
    obtain ⟨hl, -, hu⟩ := GlobalSource.of_get?_directory hu
    exact hn (hu.symm.trans (congrArg Descriptor.name (honly u hl)))

theorem start_snd (g : Graph) (source : GlobalSource) (settings : Settings) (c : Catalog) :
    (start g source settings c).2 = c.shapesOf g (registered source settings) := by
  unfold start registered
  cases settings.registersTypes with
  | true => exact Catalog.registerGlobals_snd source
  | false => rfl

theorem readOnly_start (g : Graph) (source : GlobalSource) (settings : Settings) (c : Catalog) :
    (start g source settings c).2.readOnly = c.readOnly := by
  rw [start_snd, Catalog.readOnly_shapesOf]

theorem retains_start (g : Graph) (source : GlobalSource) (settings : Settings) (c : Catalog) :
    (start g source settings c).2.Retains c := by
  rw [start_snd]
  exact Catalog.retains_shapesOf g c (registered source settings)

theorem bears_start {d : Directory} (h : Catalog.Bears g d c) (source : GlobalSource)
    (settings : Settings) :
    Catalog.Bears g (d.bindAll ((registered source settings).flatMap g.preorder))
      (start g source settings c).2 := by
  rw [start_snd]
  exact h.shapesOf (registered source settings)

theorem bears_start_build (g : Graph) (source : GlobalSource) (settings : Settings) (kind : CatalogKind)
    (lifetime : Nat) :
    Catalog.Bears g (ownNames g source settings) (start g source settings (.build kind lifetime)).2 :=
  bears_start ⟨(Catalog.Reachable.build kind lifetime).settled, rfl⟩ source settings

/-! ## Starting again -/

theorem alike_start (h : Catalog.Alike g c c') (source : GlobalSource) (settings : Settings) :
    Catalog.Alike g (start g source settings c).2 (start g source settings c').2 := by
  rw [start_snd, start_snd]
  exact h.shapesOf (registered source settings)

theorem covers_start (h : c.Settled g) (source : GlobalSource) (settings : Settings) :
    (start g source settings c).2.Covers g (registered source settings) := by
  rw [start_snd]
  exact Catalog.covers_shapesOf h (registered source settings)

variable {source : GlobalSource} {settings : Settings}

theorem start_of_nil (h : registered source settings = []) : (start g source settings c).2 = c := by
  rw [start_snd, h]
  rfl

/-- Over a catalog whose shapes stay and which has all that starting a session asks for, starting it
changes nothing. -/
theorem start_of_covers (hk : c.store.retention = .kept)
    (h : c.Covers g (registered source settings)) : (start g source settings c).2 = c := by
  rw [start_snd]
  exact Catalog.shapesOf_of_contains (h.kept hk)

/-- Where no shape lasts it discovers all of it again, and changes nothing else. -/
theorem start_of_covers_none (hk : c.store.retention = .none)
    (h : c.Covers g (registered source settings)) :
    Catalog.SameButCount c (start g source settings c).2 := by
  refine ⟨?_, (readOnly_start g source settings c).symm⟩
  rw [start_snd]
  exact (Catalog.store_shapesOf hk h.named).symm

/-- Where all the names are bound already, starting a session binds none. -/
theorem alike_start_named (h : Catalog.Alike g c c')
    (hn : ∀ t ∈ registered source settings, ∀ u, g.Reach t u → Directory.Named c.store.aliases u) :
    Catalog.Alike g c (start g source settings c').2 := by
  have hb := bears_start ⟨h.settled', rfl⟩ source settings
  refine ⟨h.settled, hb.1, ?_, ?_⟩
  · rw [hb.2, ← h.names, Directory.bindAll_of_named]
    intro u hu
    obtain ⟨t, ht, hr⟩ := List.mem_flatMap.1 hu
    exact hn t ht u (Graph.mem_preorder.1 hr)
  · rw [readOnly_start, h.readOnly]

end Session

end Stencil
