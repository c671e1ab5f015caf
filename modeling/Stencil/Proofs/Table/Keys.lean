import Mathlib.Data.Finset.Card
import Mathlib.Data.Finset.Dedup
import Stencil.Table

/-!
# The names in a table

Each name in a table has one entry, so the size of a table is the number of its names. What was set
last counts.
-/

namespace Stencil.Table

variable {β : Type*} {t : Table β}

theorem mem_keys_iff {k : String} : k ∈ t.keys ↔ t.contains k = true := by
  rw [contains, get?, List.lookup_isSome_iff, keys, List.mem_map]
  simp only [beq_iff_eq, @eq_comm _ k]

theorem pairwise_keys (t : Table β) : t.keys.Pairwise (· < ·) := List.pairwise_map.2 t.sorted

theorem nodup_keys (t : Table β) : t.keys.Nodup := by
  refine t.pairwise_keys.imp ?_
  rintro a b h rfl
  exact String.lt_irrefl a h

theorem size_eq_card (t : Table β) : t.size = t.keys.toFinset.card := by
  rw [List.toFinset_card_of_nodup t.nodup_keys, keys, List.length_map, size]

theorem toFinset_keys_set (t : Table β) (k : String) (v : β) :
    (t.set k v).keys.toFinset = insert k t.keys.toFinset := by
  ext j
  rw [Finset.mem_insert, List.mem_toFinset, List.mem_toFinset, mem_keys_iff, mem_keys_iff,
    contains_set, Bool.or_eq_true, beq_iff_eq]

theorem size_set_of_not_contains {k : String} (h : t.contains k = false) (v : β) :
    (t.set k v).size = t.size + 1 := by
  have hk : k ∉ t.keys.toFinset := by
    rw [List.mem_toFinset, mem_keys_iff, h]
    exact Bool.false_ne_true
  rw [size_eq_card, size_eq_card, toFinset_keys_set, Finset.card_insert_of_notMem hk]

/-! ## Many entries -/

theorem get?_setAll (t : Table β) (l : List (String × β)) (k : String) :
    (t.setAll l).get? k = ((l.findRev? (·.1 == k)).map (·.2)).or (t.get? k) := by
  induction l generalizing t with
  | nil => rfl
  | cons e l ih =>
    have h : (t.setAll (e :: l)).get? k = ((t.set e.1 e.2).setAll l).get? k := rfl
    rw [h, ih, get?_set, List.findRev?]
    cases l.findRev? (·.1 == k) with
    | some e' => rfl
    | none =>
      by_cases hk : k = e.1
      · simp [hk]
      · simp [hk, Ne.symm hk]

theorem toFinset_keys_setAll (t : Table β) (l : List (String × β)) :
    (t.setAll l).keys.toFinset = (l.map (·.1)).toFinset ∪ t.keys.toFinset := by
  induction l generalizing t with
  | nil => simp [setAll]
  | cons e l ih =>
    have h : t.setAll (e :: l) = (t.set e.1 e.2).setAll l := rfl
    rw [h, ih, toFinset_keys_set, List.map_cons, List.toFinset_cons, Finset.insert_union,
      Finset.union_insert]

theorem size_ofList (l : List (String × β)) : (ofList l).size = (l.map (·.1)).toFinset.card := by
  rw [size_eq_card, ofList, toFinset_keys_setAll]
  exact congrArg Finset.card (Finset.union_empty _)

theorem get?_ofList (l : List (String × β)) (k : String) :
    (ofList l).get? k = (l.findRev? (·.1 == k)).map (·.2) := by
  rw [ofList, get?_setAll, get?_empty, Option.or_none]

theorem mem_of_lookup {k : String} {v : β} {l : List (String × β)} (h : l.lookup k = some v) : (k, v) ∈ l := by
  obtain ⟨l₁, l₂, rfl, -⟩ := List.lookup_eq_some_iff.1 h
  exact List.mem_append_right _ List.mem_cons_self

theorem mem_of_mem_ofList {l : List (String × β)} {e : String × β} (h : e ∈ (ofList l).entries) : e ∈ l :=
  (mem_setAll h).resolve_right List.not_mem_nil

theorem mem_of_get?_ofList {l : List (String × β)} {k : String} {v : β}
    (h : (ofList l).get? k = some v) : (k, v) ∈ l :=
  mem_of_mem_ofList (mem_of_lookup h)

/-! ## Entries -/

theorem put_map {γ : Type*} (f : β → γ) (k : String) (v : β) (l : List (String × β)) :
    put k (f v) (l.map fun e => (e.1, f e.2)) = (put k v l).map fun e => (e.1, f e.2) := by
  induction l with
  | nil => rfl
  | cons e l ih =>
    rw [List.map_cons, put, put, ih]
    split
    · rfl
    · split <;> rfl

theorem entries_ofList_map {γ : Type*} (f : β → γ) (l : List (String × β)) :
    (ofList (l.map fun e => (e.1, f e.2))).entries = (ofList l).entries.map fun e => (e.1, f e.2) := by
  have h : ∀ (t : Table β) (u : Table γ), u.entries = t.entries.map (fun e => (e.1, f e.2)) →
      (u.setAll (l.map fun e => (e.1, f e.2))).entries =
        (t.setAll l).entries.map fun e => (e.1, f e.2) := by
    induction l with
    | nil => exact fun t u h => h
    | cons e l ih =>
      intro t u h
      refine ih (t.set e.1 e.2) (u.set e.1 (f e.2)) ?_
      show put e.1 (f e.2) u.entries = (put e.1 e.2 t.entries).map _
      rw [h, put_map]
  exact h empty empty rfl

theorem put_of_lt {k : String} {l : List (String × β)} (h : ∀ e ∈ l, e.1 < k) (v : β) :
    put k v l = l ++ [(k, v)] := by
  induction l with
  | nil => rfl
  | cons e l ih =>
    have hlt : e.1 < k := h e List.mem_cons_self
    have hne : k ≠ e.1 := by
      rintro rfl
      exact String.lt_irrefl _ hlt
    rw [put, if_neg (String.lt_asymm hlt), if_neg hne, ih fun e he => h e (List.mem_cons_of_mem _ he)]
    rfl

/-- A list in the order of its names has no two of one name, and is a table as it is. -/
theorem entries_ofList {l : List (String × β)} (h : l.Pairwise fun a b => a.1 < b.1) :
    (ofList l).entries = l := by
  have hset : ∀ t : Table β, (t.entries ++ l).Pairwise (fun a b => a.1 < b.1) →
      (t.setAll l).entries = t.entries ++ l := by
    clear h
    induction l with
    | nil => exact fun t _ => (List.append_nil _).symm
    | cons e l ih =>
      intro t h
      have hput : (t.set e.1 e.2).entries = t.entries ++ [e] := by
        refine put_of_lt (fun d hd => ?_) e.2
        exact (List.pairwise_append.1 h).2.2 d hd e List.mem_cons_self
      have hl : t.entries ++ e :: l = (t.set e.1 e.2).entries ++ l := by
        rw [hput, List.append_assoc, List.singleton_append]
      rw [hl] at h ⊢
      exact ih _ h
  exact hset empty h

/-! ## Entries by their names -/

theorem lookup_map {γ : Type*} (f : β → γ) (k : String) (l : List (String × β)) :
    (l.map fun e => (e.1, f e.2)).lookup k = (l.lookup k).map f := by
  induction l with
  | nil => rfl
  | cons e l ih =>
    rw [List.map_cons, lookup_cons_ite, lookup_cons_ite, ih]
    split <;> rfl

/-- Where no two entries have one name the last of a name is the first. -/
theorem get?_ofList_of_nodup {l : List (String × β)} (h : (l.map (·.1)).Nodup) (k : String) :
    (ofList l).get? k = l.lookup k := by
  rw [get?_ofList]
  induction l with
  | nil => rfl
  | cons e l ih =>
    obtain ⟨he, hl⟩ := List.nodup_cons.1 h
    rw [List.findRev?, lookup_cons_ite, ← ih hl]
    by_cases hk : k = e.1
    · have hnone : l.findRev? (·.1 == k) = none := by
        rw [List.findRev?_eq_find?_reverse, List.find?_eq_none]
        intro d hd hdk
        exact he (List.mem_map.2 ⟨d, List.mem_reverse.1 hd, (eq_of_beq hdk).trans hk⟩)
      rw [hnone, if_pos hk, hk, beq_self_eq_true]
      rfl
    · rw [if_neg hk, beq_eq_false_iff_ne.2 (Ne.symm hk)]
      cases l.findRev? (·.1 == k) <;> rfl

theorem length_entries_ofList {l : List (String × β)} (h : (l.map (·.1)).Nodup) :
    (ofList l).entries.length = l.length := by
  rw [← size, size_ofList, List.toFinset_card_of_nodup h, List.length_map]

end Stencil.Table
