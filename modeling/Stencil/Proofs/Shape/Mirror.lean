import Stencil.Proofs.Shape.Directory

/-!
# Catalogs and directories

A catalog mirrors a directory when its names are those of the directory and its kept shapes are as
they would be discovered, closed under fields, and named. Then it does not show that shapes are
kept: what is passed over because it is kept has nothing left to bind, so that the names come out
as if every type were visited.
-/

namespace Stencil

namespace Catalog

variable {g : Graph} {c : Catalog} {d : Directory}

/-- The names are those of the directory; kept shapes are right, closed under fields, and named. -/
structure Mirrors (g : Graph) (c : Catalog) (d : Directory) : Prop where
  names : c.store.aliases = d
  sound : ∀ s ∈ c.store.shapes, s = g.shape s.type
  closed : ∀ t, c.store.contains t = true → ∀ u ∈ g.fieldTypes t, c.store.contains u = true
  named : ∀ t, c.store.contains t = true → d.Named t

/-! ## What is kept -/

theorem contains_iff {t : Descriptor} :
    c.store.contains t = true ↔ ∃ s ∈ c.store.shapes, s.type = t := by
  rw [Store.contains, Store.get?, List.find?_isSome]
  simp

theorem get?_of_sound (h : ∀ s ∈ c.store.shapes, s = g.shape s.type) {t : Descriptor} {s : Shape}
    (hs : c.store.get? t = some s) : s = g.shape t := by
  have ht : s.type = t := by simpa using List.find?_some hs
  rw [← ht]
  exact h s (List.mem_of_find?_eq_some hs)

theorem shapeOf_fst_of_sound (h : ∀ s ∈ c.store.shapes, s = g.shape s.type) (t : Descriptor) :
    (c.shapeOf g t).1 = g.shape t := by
  unfold shapeOf
  cases hs : c.store.get? t with
  | none => rfl
  | some s => exact get?_of_sound h hs

theorem eq_or_alias?_of_setAlias {name n : String} {t u : Descriptor}
    (h : (c.store.setAlias name t true).alias? n = some u) : u = t ∨ c.store.alias? n = some u := by
  have h : (c.store.aliases.set name t).get? n = some u := h
  rw [Table.get?_set] at h
  split at h
  · cases h
    exact .inl rfl
  · exact .inr h

def addAll (g : Graph) (c : Catalog) (ts : List Descriptor) : Catalog :=
  ts.foldl (fun c t => c.add (g.shape t)) c

@[simp] theorem addAll_nil (g : Graph) (c : Catalog) : c.addAll g [] = c := rfl

theorem addAll_cons (g : Graph) (c : Catalog) (t : Descriptor) (ts : List Descriptor) :
    c.addAll g (t :: ts) = (c.add (g.shape t)).addAll g ts := rfl

theorem shapes_add (s : Shape) :
    (c.add s).store.shapes =
      if c.store.retention = .kept then c.store.shapes ++ [s] else c.store.shapes := by
  unfold add Store.put
  cases hr : c.store.retention <;> cases hl : s.isLeaf <;> simp [Store.setAlias]

theorem retention_add (s : Shape) : (c.add s).store.retention = c.store.retention := by
  unfold add Store.put
  cases hr : c.store.retention <;> cases hl : s.isLeaf <;> simp [Store.setAlias, hr]

theorem discoveries_add (s : Shape) : (c.add s).discoveries = c.discoveries + 1 := rfl

theorem aliases_add (g : Graph) (t : Descriptor) :
    (c.add (g.shape t)).store.aliases = Directory.bind c.store.aliases t := by
  unfold add Store.put Directory.bind
  cases hr : c.store.retention <;> cases hl : t.isLeaf <;>
    simp [Store.setAlias, Shape.isLeaf, Graph.shape, hl]

theorem contains_add {t u : Descriptor} :
    (c.add (g.shape t)).store.contains u = true ↔
      c.store.contains u = true ∨ (c.store.retention = .kept ∧ t = u) := by
  rw [contains_iff, contains_iff, shapes_add]
  split
  · rename_i hr
    simp [hr, or_and_right, exists_or, Graph.shape]
  · rename_i hr
    simp [hr]

theorem addAll_spec (g : Graph) (ts : List Descriptor) (c : Catalog) :
    (c.addAll g ts).store.retention = c.store.retention ∧
    (c.addAll g ts).readOnly = c.readOnly ∧
    (c.addAll g ts).discoveries = c.discoveries + ts.length ∧
    (c.addAll g ts).store.aliases = Directory.bindAll c.store.aliases ts ∧
    (∀ u, (c.addAll g ts).store.contains u = true ↔
      c.store.contains u = true ∨ (c.store.retention = .kept ∧ u ∈ ts)) ∧
    ∀ s ∈ (c.addAll g ts).store.shapes, s ∈ c.store.shapes ∨ s = g.shape s.type := by
  induction ts generalizing c with
  | nil =>
    refine ⟨rfl, rfl, rfl, rfl, fun u => ?_, fun _ h => .inl h⟩
    simp only [addAll_nil, List.not_mem_nil, and_false, or_false]
  | cons t ts ih =>
    obtain ⟨hr, ho, hd, ha, hc, hs⟩ := ih (c.add (g.shape t))
    rw [addAll_cons]
    refine ⟨hr.trans (retention_add _), ho, ?_, ?_, fun u => ?_, fun s h => ?_⟩
    · rw [hd, discoveries_add, List.length_cons]
      omega
    · rw [ha, aliases_add]; rfl
    · rw [hc, contains_add, retention_add, List.mem_cons, or_assoc, ← and_or_left, eq_comm (a := t)]
    · rcases hs s h with h | h
      · rw [shapes_add] at h
        split at h
        · rcases List.mem_append.1 h with h | h
          · exact .inl h
          · rw [List.mem_singleton.1 h]
            exact .inr rfl
        · exact .inl h
      · exact .inr h

/-- Exploring discovers in turn what is visited when the kept types are passed over. -/
theorem explore_eq {skip : Descriptor → Bool} {unseen pending : List Descriptor}
    (h : ∀ t ∈ unseen, c.store.contains t = skip t) :
    c.explore g unseen pending = c.addAll g (g.visit skip unseen pending) := by
  induction unseen, pending using Graph.visit.induct g skip generalizing c with
  | case1 unseen => rw [explore, Graph.visit_nil, addAll_nil]
  | case2 unseen t rest ht ih =>
    have hc : t ∈ unseen ∧ c.store.contains t = false := ⟨ht.1, (h t ht.1).trans ht.2⟩
    rw [explore, if_pos hc, Graph.visit_cons_of_fresh ht, addAll_cons]
    refine ih fun u hu => ?_
    rw [mem_without] at hu
    rw [← h u hu.1, Bool.eq_iff_iff, contains_add]
    constructor
    · rintro (h | ⟨-, e⟩)
      · exact h
      · exact absurd e.symm hu.2
    · exact .inl
  | case3 unseen t rest ht ih =>
    have hc : ¬ (t ∈ unseen ∧ c.store.contains t = false) := fun hc =>
      ht ⟨hc.1, (h t hc.1).symm.trans hc.2⟩
    rw [explore, if_neg hc, Graph.visit_cons_of_not_fresh ht]
    exact ih h

/-- The types that are discovered when a type is asked for. -/
def toDiscover (g : Graph) (c : Catalog) (t : Descriptor) : List Descriptor :=
  g.visit c.store.contains (t :: g.memberTypes) [t]

theorem shapeOf_snd (g : Graph) (c : Catalog) (t : Descriptor) :
    (c.shapeOf g t).2 = c.addAll g (c.toDiscover g t) :=
  explore_eq fun _ _ => rfl

theorem shapeOf_spec (g : Graph) (c : Catalog) (t : Descriptor) :
    (c.shapeOf g t).2.store.retention = c.store.retention ∧
    (c.shapeOf g t).2.readOnly = c.readOnly ∧
    (c.shapeOf g t).2.discoveries = c.discoveries + (c.toDiscover g t).length ∧
    (c.shapeOf g t).2.store.aliases = Directory.bindAll c.store.aliases (c.toDiscover g t) ∧
    (∀ u, (c.shapeOf g t).2.store.contains u = true ↔
      c.store.contains u = true ∨ (c.store.retention = .kept ∧ u ∈ c.toDiscover g t)) ∧
    ∀ s ∈ (c.shapeOf g t).2.store.shapes, s ∈ c.store.shapes ∨ s = g.shape s.type := by
  rw [shapeOf_snd]
  exact addAll_spec g _ c

theorem contains_or_mem_toDiscover (g : Graph) (c : Catalog) (t : Descriptor) :
    c.store.contains t = true ∨ t ∈ c.toDiscover g t := by
  cases hc : c.store.contains t with
  | true => exact .inl rfl
  | false => exact .inr (Graph.mem_visit_of_pending List.mem_cons_self List.mem_cons_self hc)

/-- A field of what is discovered now is kept before or discovered too. -/
theorem contains_or_mem_of_field {t u v : Descriptor} (hu : u ∈ c.toDiscover g t)
    (hv : v ∈ g.fieldTypes u) : c.store.contains v = true ∨ v ∈ c.toDiscover g t := by
  cases hc : c.store.contains v with
  | true => exact .inl rfl
  | false =>
    exact .inr (Graph.mem_visit_of_field hu hv
      (List.mem_cons_of_mem _ (Graph.fieldTypes_subset hv)) hc)

end Catalog

/-! ## Passing over what is named -/

open Catalog (without)

namespace Graph

variable {g : Graph} {skip : Descriptor → Bool}

/-- Types that are passed over need not be unseen. -/
theorem visit_congr {unseen unseen' : List Descriptor}
    (h : ∀ t, skip t = false → (t ∈ unseen ↔ t ∈ unseen')) (pending : List Descriptor) :
    g.visit skip unseen pending = g.visit skip unseen' pending := by
  induction unseen, pending using visit.induct g skip generalizing unseen' with
  | case1 unseen => rw [visit_nil, visit_nil]
  | case2 unseen t rest ht ih =>
    rw [visit_cons_of_fresh ht, visit_cons_of_fresh ⟨(h t ht.2).1 ht.1, ht.2⟩]
    refine congrArg _ (ih fun u hu => ?_)
    rw [mem_without, mem_without, h u hu]
  | case3 unseen t rest ht ih =>
    have ht' : ¬ (t ∈ unseen' ∧ skip t = false) := fun h' => ht ⟨(h t h'.2).2 h'.1, h'.2⟩
    rw [visit_cons_of_not_fresh ht, visit_cons_of_not_fresh ht']
    exact ih h

theorem visit_append_skipped {unseen ts : List Descriptor} (h : ∀ t ∈ ts, skip t = true)
    (rest : List Descriptor) : g.visit skip unseen (ts ++ rest) = g.visit skip unseen rest := by
  induction ts with
  | nil => rfl
  | cons t ts ih =>
    have ht : ¬ (t ∈ unseen ∧ skip t = false) := fun h' => by
      rw [h t List.mem_cons_self] at h'; cases h'.2
    rw [List.cons_append, visit_cons_of_not_fresh ht]
    exact ih fun u hu => h u (List.mem_cons_of_mem _ hu)

/-- Of a closed set of types with bound names it makes no difference which ones are passed over. -/
theorem bindAll_visit {skip' : Descriptor → Bool} (hle : ∀ t, skip t = true → skip' t = true)
    (hclosed : ∀ t, skip' t = true → ∀ u ∈ g.fieldTypes t, skip' u = true)
    {unseen pending : List Descriptor} {d : Directory} (hnamed : ∀ t, skip' t = true → d.Named t) :
    d.bindAll (g.visit skip unseen pending) = d.bindAll (g.visit skip' unseen pending) := by
  induction unseen, pending using visit.induct g skip generalizing d with
  | case1 unseen => rw [visit_nil, visit_nil]
  | case2 unseen t rest ht ih =>
    rw [visit_cons_of_fresh ht]
    cases hs : skip' t with
    | true =>
      -- What is visited below leads to fields that are all passed over, and binds nothing new.
      have hn : ¬ (t ∈ unseen ∧ skip' t = false) := fun h' => by rw [hs] at h'; cases h'.2
      have hu : ∀ u, skip' u = false → (u ∈ unseen ↔ u ∈ without t unseen) := fun u hu => by
        rw [mem_without, and_iff_left]
        rintro rfl
        rw [hs] at hu; cases hu
      have hb : d.bindAll (t :: g.visit skip (without t unseen) (g.fieldTypes t ++ rest)) =
          d.bindAll (g.visit skip (without t unseen) (g.fieldTypes t ++ rest)) := by
        rw [Directory.bindAll, List.foldl_cons, Directory.bind_of_named (hnamed t hs)]
        rfl
      rw [hb, ih hnamed, visit_cons_of_not_fresh hn, visit_append_skipped (hclosed t hs),
        visit_congr hu]
    | false =>
      rw [visit_cons_of_fresh ⟨ht.1, hs⟩]
      exact ih fun u hu => (Directory.grows_bind d t).named (hnamed u hu)
  | case3 unseen t rest ht ih =>
    have hs : ¬ (t ∈ unseen ∧ skip' t = false) := by
      rintro ⟨hm, hs⟩
      refine ht ⟨hm, ?_⟩
      cases h : skip t with
      | true => rw [hle t h] at hs; cases hs
      | false => rfl
    rw [visit_cons_of_not_fresh ht, visit_cons_of_not_fresh hs]
    exact ih hnamed

end Graph

namespace Catalog.Mirrors

variable {g : Graph} {c : Catalog} {d : Directory}

theorem cleared (g : Graph) (c : Catalog) :
    Mirrors g { c with store := c.store.clear } Table.empty where
  names := rfl
  sound _ h := by cases h
  closed _ h := by cases h
  named _ h := by cases h

theorem empty (g : Graph) (r : Retention) : Mirrors g (Catalog.empty r) Table.empty :=
  cleared g (Catalog.empty r)

/-- The shape that is given is the one that would be discovered. -/
theorem shapeOf_fst (h : Mirrors g c d) (t : Descriptor) : (c.shapeOf g t).1 = g.shape t :=
  shapeOf_fst_of_sound h.sound t

theorem shapeOf (h : Mirrors g c d) (t : Descriptor) :
    Mirrors g (c.shapeOf g t).2 (d.bindAll (g.preorder t)) := by
  have hts : d.bindAll (c.toDiscover g t) = d.bindAll (g.preorder t) := by
    have hle : ∀ u, false = true → c.store.contains u = true := fun _ hu => by cases hu
    rw [Graph.preorder_eq_visit]
    exact (Graph.bindAll_visit hle h.closed h.named).symm
  obtain ⟨-, -, -, ha, hc, hs⟩ := shapeOf_spec g c t
  rw [← hts]
  refine ⟨ha.trans (by rw [h.names]), fun s hm => ?_, fun u hu v hv => ?_, fun u hu => ?_⟩
  · exact (hs s hm).elim (h.sound s) id
  · rw [hc] at hu ⊢
    rcases hu with hu | ⟨hr, hu⟩
    · exact .inl (h.closed u hu v hv)
    · exact (contains_or_mem_of_field hu hv).imp_right fun hm => ⟨hr, hm⟩
  · rcases (hc u).1 hu with hu | ⟨-, hu⟩
    · exact (Directory.grows_bindAll _ d).named (h.named u hu)
    · exact Directory.named_bindAll hu d

theorem setAlias (h : Mirrors g c d) (name : String) (t : Descriptor) :
    Mirrors g { c with store := c.store.setAlias name t true } (d.set name t) := by
  refine ⟨?_, h.sound, h.closed, fun u hu => (h.named u hu).set name t⟩
  simp [Store.setAlias, h.names]

end Catalog.Mirrors

end Stencil
