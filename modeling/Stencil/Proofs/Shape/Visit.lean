import Stencil.Shape.Catalog

/-!
# Visiting types

`depthFirst` lists the types that are reached from some types along fields: each one before what its
fields lead to, fields in the order of their names, each type once. `visit` does the same with a
stack, and may pass over types; where a closed set of types is passed over, the others come in the
same order.
-/

namespace Stencil

namespace Graph

variable (g : Graph)

/-- The types of the discovered fields, in the order of the fields' names. -/
def fieldTypes (t : Descriptor) : List Descriptor := (g.shape t).fields.values

/-- The second type is reached from the first along discovered fields. -/
inductive Reach : Descriptor → Descriptor → Prop
  | refl (t : Descriptor) : Reach t t
  | step {t u v : Descriptor} : u ∈ g.fieldTypes t → Reach u v → Reach t v

variable {g}

theorem Reach.trans {t u v : Descriptor} (h : g.Reach t u) (h' : g.Reach u v) : g.Reach t v := by
  induction h with
  | refl => exact h'
  | step hf _ ih => exact .step hf (ih h')

theorem Reach.of_closed {P : Descriptor → Prop} (hP : ∀ t, P t → ∀ u ∈ g.fieldTypes t, P u)
    {t u : Descriptor} (h : g.Reach t u) (ht : P t) : P u := by
  induction h with
  | refl => exact ht
  | step hf _ ih => exact ih (hP _ ht _ hf)

/-- A type whose fields have its own type only leads nowhere else. -/
theorem Reach.eq_of_own {t u : Descriptor} (h : g.Reach t u) (hf : ∀ v ∈ g.fieldTypes t, v = t) :
    u = t :=
  h.of_closed (P := (· = t)) (by rintro _ rfl; exact hf) rfl

/-! ## Fields have types of members -/

theorem mem_values_addAccessor {owner : String} {d : Discovery} {m : Member} {u : Descriptor}
    (h : u ∈ (d.addAccessor owner m).fields.values) : u = m.type ∨ u ∈ d.fields.values := by
  unfold Discovery.addAccessor at h
  split at h
  · exact .inr h
  · split at h
    · exact .inr h
    · exact Table.mem_values_put h

theorem mem_values_ofMembers {owner : String} {ms : List Member} {u : Descriptor}
    (h : u ∈ (Discovery.ofMembers owner ms).fields.values) : ∃ m ∈ ms, m.type = u := by
  have key : ∀ (l : List Member) (d : Discovery),
      u ∈ (l.foldl (Discovery.addAccessor owner) d).fields.values →
        (∃ m ∈ l, m.type = u) ∨ u ∈ d.fields.values := by
    intro l
    induction l with
    | nil => intro d h; exact .inr h
    | cons m l ih =>
      intro d h
      rcases ih _ h with ⟨m', hm, e⟩ | h
      · exact .inl ⟨m', List.mem_cons_of_mem _ hm, e⟩
      · rcases mem_values_addAccessor h with rfl | h
        · exact .inl ⟨m, List.mem_cons_self, rfl⟩
        · exact .inr h
  rcases key _ _ h with ⟨m, hm, e⟩ | h
  · exact ⟨m, (List.mem_filter.1 hm).1, e⟩
  · rcases Table.mem_values_setAll h with h | h
    · rw [List.map_map] at h
      obtain ⟨m, hm, e⟩ := List.mem_map.1 h
      exact ⟨m, (List.mem_filter.1 hm).1, e⟩
    · cases h

theorem fieldTypes_subset {t u : Descriptor} (h : u ∈ g.fieldTypes t) : u ∈ g.memberTypes := by
  obtain ⟨m, hm, rfl⟩ := mem_values_ofMembers h
  exact type_mem_memberTypes hm

end Graph

open Catalog (without length_without_lt)

theorem mem_without {t u : Descriptor} {l : List Descriptor} :
    u ∈ without t l ↔ u ∈ l ∧ u ≠ t := by
  simp [without]

/-! ## Depth first -/

/-- Depth first through the pending types and what their fields lead to, as far as unseen: a type,
what its fields lead to, and then the rest without these. -/
def Graph.depthFirst (g : Graph) (unseen pending : List Descriptor) : List Descriptor :=
  match pending with
  | [] => []
  | t :: rest =>
    if t ∈ unseen then
      let below := g.depthFirst (without t unseen) (g.fieldTypes t)
      t :: (below ++ g.depthFirst ((without t unseen).filter (· ∉ below)) rest)
    else g.depthFirst unseen rest
termination_by (unseen.length, pending.length)
decreasing_by
  · rename_i h
    exact Prod.Lex.left _ _ (length_without_lt h)
  · rename_i h
    exact Prod.Lex.left _ _ (Nat.lt_of_le_of_lt (List.length_filter_le ..) (length_without_lt h))
  · exact Prod.Lex.right _ (Nat.lt_succ_self _)

def Graph.preorder (g : Graph) (t : Descriptor) : List Descriptor :=
  g.depthFirst (t :: g.memberTypes) [t]

/-- Depth first with a stack of pending types, without the types to be skipped. -/
def Graph.visit (g : Graph) (skip : Descriptor → Bool) (unseen pending : List Descriptor) :
    List Descriptor :=
  match pending with
  | [] => []
  | t :: rest =>
    if t ∈ unseen ∧ skip t = false then t :: g.visit skip (without t unseen) (g.fieldTypes t ++ rest)
    else g.visit skip unseen rest
termination_by (unseen.length, pending.length)
decreasing_by
  · rename_i h
    exact Prod.Lex.left _ _ (length_without_lt h.1)
  · exact Prod.Lex.right _ (Nat.lt_succ_self _)

namespace Graph

variable {g : Graph} {skip : Descriptor → Bool} {unseen : List Descriptor}

@[simp] theorem visit_nil : g.visit skip unseen [] = [] := by
  rw [visit]

theorem visit_cons_of_fresh {t : Descriptor} (h : t ∈ unseen ∧ skip t = false)
    (rest : List Descriptor) :
    g.visit skip unseen (t :: rest) = t :: g.visit skip (without t unseen) (g.fieldTypes t ++ rest) := by
  rw [visit, if_pos h]

theorem visit_cons_of_not_fresh {t : Descriptor} (h : ¬ (t ∈ unseen ∧ skip t = false))
    (rest : List Descriptor) : g.visit skip unseen (t :: rest) = g.visit skip unseen rest := by
  rw [visit, if_neg h]

theorem filter_without (t : Descriptor) (l m : List Descriptor) :
    (without t l).filter (· ∉ m) = l.filter (· ∉ t :: m) := by
  rw [without, List.filter_filter]
  refine List.filter_congr fun u _ => ?_
  simp [Bool.and_comm]

/-- Of two stacks the upper one is visited first, and nothing twice. -/
theorem visit_append (p q : List Descriptor) :
    g.visit skip unseen (p ++ q) =
      g.visit skip unseen p ++ g.visit skip (unseen.filter (· ∉ g.visit skip unseen p)) q := by
  induction unseen, p using visit.induct g skip with
  | case1 unseen =>
    have : unseen.filter (· ∉ g.visit skip unseen []) = unseen := by
      rw [visit_nil, List.filter_eq_self]
      intro u _
      simp
    rw [this, visit_nil, List.nil_append, List.nil_append]
  | case2 unseen t rest h ih =>
    rw [List.append_assoc] at ih
    rw [List.cons_append, visit_cons_of_fresh h, visit_cons_of_fresh h, ih, filter_without,
      List.cons_append]
  | case3 unseen t rest h ih =>
    rw [List.cons_append, visit_cons_of_not_fresh h, visit_cons_of_not_fresh h, ih]

/-- The stack visits depth first. -/
theorem visit_eq_depthFirst (pending : List Descriptor) :
    g.visit (fun _ => false) unseen pending = g.depthFirst unseen pending := by
  induction unseen, pending using depthFirst.induct g with
  | case1 unseen => rw [visit_nil, depthFirst]
  | case2 unseen t rest h below ih ih' =>
    rw [visit_cons_of_fresh ⟨h, rfl⟩, visit_append, ih, ih', depthFirst, if_pos h]
  | case3 unseen t rest h ih =>
    rw [visit_cons_of_not_fresh fun h' => h h'.1, ih, depthFirst, if_neg h]

/-! ## What is visited -/

theorem mem_of_mem_visit {pending : List Descriptor} {u : Descriptor}
    (h : u ∈ g.visit skip unseen pending) : u ∈ unseen ∧ skip u = false := by
  induction unseen, pending using visit.induct g skip with
  | case1 unseen => simp at h
  | case2 unseen t rest ht ih =>
    rw [visit_cons_of_fresh ht] at h
    rcases List.mem_cons.1 h with rfl | h
    · exact ht
    · exact ⟨(mem_without.1 (ih h).1).1, (ih h).2⟩
  | case3 unseen t rest ht ih =>
    rw [visit_cons_of_not_fresh ht] at h
    exact ih h

theorem nodup_visit (pending : List Descriptor) : (g.visit skip unseen pending).Nodup := by
  induction unseen, pending using visit.induct g skip with
  | case1 unseen => simp
  | case2 unseen t rest ht ih =>
    rw [visit_cons_of_fresh ht, List.nodup_cons]
    exact ⟨fun h => (mem_without.1 (mem_of_mem_visit h).1).2 rfl, ih⟩
  | case3 unseen t rest ht ih => rwa [visit_cons_of_not_fresh ht]

theorem mem_visit_of_pending {pending : List Descriptor} {u : Descriptor} (hp : u ∈ pending)
    (hu : u ∈ unseen) (hs : skip u = false) : u ∈ g.visit skip unseen pending := by
  induction unseen, pending using visit.induct g skip with
  | case1 unseen => cases hp
  | case2 unseen t rest ht ih =>
    rw [visit_cons_of_fresh ht, List.mem_cons]
    by_cases e : u = t
    · exact .inl e
    · have hr : u ∈ rest := (List.mem_cons.1 hp).resolve_left e
      exact .inr (ih (List.mem_append_right _ hr) (mem_without.2 ⟨hu, e⟩))
  | case3 unseen t rest ht ih =>
    rw [visit_cons_of_not_fresh ht]
    rcases List.mem_cons.1 hp with rfl | hr
    · exact absurd ⟨hu, hs⟩ ht
    · exact ih hr hu

theorem mem_visit_of_field {pending : List Descriptor} {t u : Descriptor}
    (h : t ∈ g.visit skip unseen pending) (hf : u ∈ g.fieldTypes t) (hu : u ∈ unseen)
    (hs : skip u = false) : u ∈ g.visit skip unseen pending := by
  induction unseen, pending using visit.induct g skip with
  | case1 unseen => simp at h
  | case2 unseen v rest hv ih =>
    rw [visit_cons_of_fresh hv, List.mem_cons] at h ⊢
    by_cases e : u = v
    · exact .inl e
    · right
      rcases h with rfl | h
      · exact mem_visit_of_pending (List.mem_append_left _ hf) (mem_without.2 ⟨hu, e⟩) hs
      · exact ih h (mem_without.2 ⟨hu, e⟩)
  | case3 unseen v rest hv ih =>
    rw [visit_cons_of_not_fresh hv] at h ⊢
    exact ih h hu

theorem reach_of_mem_visit {pending : List Descriptor} {u : Descriptor}
    (h : u ∈ g.visit skip unseen pending) : ∃ t ∈ pending, g.Reach t u := by
  induction unseen, pending using visit.induct g skip with
  | case1 unseen => simp at h
  | case2 unseen t rest ht ih =>
    rw [visit_cons_of_fresh ht] at h
    rcases List.mem_cons.1 h with rfl | h
    · exact ⟨u, List.mem_cons_self, .refl u⟩
    · obtain ⟨v, hv, hr⟩ := ih h
      rcases List.mem_append.1 hv with hv | hv
      · exact ⟨t, List.mem_cons_self, .step hv hr⟩
      · exact ⟨v, List.mem_cons_of_mem _ hv, hr⟩
  | case3 unseen t rest ht ih =>
    rw [visit_cons_of_not_fresh ht] at h
    obtain ⟨v, hv, hr⟩ := ih h
    exact ⟨v, List.mem_cons_of_mem _ hv, hr⟩

theorem preorder_eq_visit (t : Descriptor) :
    g.preorder t = g.visit (fun _ => false) (t :: g.memberTypes) [t] :=
  (visit_eq_depthFirst [t]).symm

theorem mem_preorder {t u : Descriptor} : u ∈ g.preorder t ↔ g.Reach t u := by
  rw [preorder_eq_visit]
  constructor
  · intro h
    obtain ⟨v, hv, hr⟩ := reach_of_mem_visit h
    rwa [List.mem_singleton.1 hv] at hr
  · -- Along the path: the fields of a visited type are visited too.
    intro hr
    refine hr.of_closed (fun v hv w hw => ?_)
      (mem_visit_of_pending List.mem_cons_self List.mem_cons_self rfl)
    exact mem_visit_of_field hv hw (List.mem_cons_of_mem _ (fieldTypes_subset hw)) rfl

end Graph

end Stencil
