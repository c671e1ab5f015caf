/-!
# Tables

Finite maps from names, held as a list in strictly increasing order of the names. A table is known
by what it answers, and `get?_empty` and `get?_set` say all about that.
-/

namespace Stencil

universe u

/-- A finite map from names; the order of the entries is that of their names. -/
structure Table (β : Type u) where
  entries : List (String × β)
  sorted : entries.Pairwise fun a b => a.1 < b.1
deriving DecidableEq

namespace Table

variable {β : Type u}

theorem lt_of_not_lt_of_ne {a b : String} (h : ¬ a < b) (hne : a ≠ b) : b < a := by
  apply Classical.byContradiction
  intro h'
  exact hne (String.le_antisymm (String.not_lt.1 h') (String.not_lt.1 h))

/-- Puts an entry at its place, in place of one of the same name. -/
def put (k : String) (v : β) : List (String × β) → List (String × β)
  | [] => [(k, v)]
  | e :: r => if k < e.1 then (k, v) :: e :: r else if k = e.1 then (k, v) :: r else e :: put k v r

theorem mem_put {k : String} {v : β} {l : List (String × β)} {e : String × β} (h : e ∈ put k v l) :
    e = (k, v) ∨ e ∈ l := by
  induction l with
  | nil => simpa [put] using h
  | cons d r ih =>
    unfold put at h
    split at h
    · simpa using h
    · split at h
      · rcases List.mem_cons.1 h with h | h
        · exact .inl h
        · exact .inr (List.mem_cons_of_mem _ h)
      · rcases List.mem_cons.1 h with h | h
        · exact .inr (h ▸ List.mem_cons_self)
        · rcases ih h with h | h
          · exact .inl h
          · exact .inr (List.mem_cons_of_mem _ h)

theorem pairwise_put {k : String} {v : β} {l : List (String × β)}
    (h : l.Pairwise fun a b => a.1 < b.1) : (put k v l).Pairwise fun a b => a.1 < b.1 := by
  induction l with
  | nil => simp [put]
  | cons d r ih =>
    obtain ⟨hd, hr⟩ := List.pairwise_cons.1 h
    unfold put
    split
    · rename_i hk
      refine List.pairwise_cons.2 ⟨fun e he => ?_, h⟩
      rcases List.mem_cons.1 he with rfl | he
      · exact hk
      · exact String.lt_trans hk (hd e he)
    · split
      · rename_i hk
        exact List.pairwise_cons.2 ⟨fun e he => hk ▸ hd e he, hr⟩
      · rename_i hlt hne
        refine List.pairwise_cons.2 ⟨fun e he => ?_, ih hr⟩
        rcases mem_put he with rfl | he
        · exact lt_of_not_lt_of_ne hlt hne
        · exact hd e he

def empty : Table β := ⟨[], .nil⟩

instance : EmptyCollection (Table β) := ⟨empty⟩

def get? (t : Table β) (k : String) : Option β := t.entries.lookup k

def contains (t : Table β) (k : String) : Bool := (t.get? k).isSome

def set (t : Table β) (k : String) (v : β) : Table β := ⟨put k v t.entries, pairwise_put t.sorted⟩

/-- Keeps an entry that is there. -/
def setNew (t : Table β) (k : String) (v : β) : Table β := if t.contains k then t else t.set k v

def keys (t : Table β) : List String := t.entries.map (·.1)

def values (t : Table β) : List β := t.entries.map (·.2)

def size (t : Table β) : Nat := t.entries.length

def isEmpty (t : Table β) : Bool := t.entries.isEmpty

/-- Of entries of one name the last one stays. -/
def setAll (t : Table β) (l : List (String × β)) : Table β := l.foldl (fun t e => t.set e.1 e.2) t

def ofList (l : List (String × β)) : Table β := setAll empty l

/-! ## What a table answers -/

@[simp] theorem get?_empty (k : String) : (empty : Table β).get? k = none := rfl

theorem lookup_cons_ite (n : String) (w : β) (r : List (String × β)) (j : String) :
    ((n, w) :: r).lookup j = if j = n then some w else r.lookup j := by
  rw [List.lookup_cons]
  by_cases h : j = n
  · simp [h]
  · rw [beq_eq_false_iff_ne.2 h, if_neg h]

theorem lookup_put (k : String) (v : β) (l : List (String × β)) (j : String) :
    (put k v l).lookup j = if j = k then some v else l.lookup j := by
  induction l with
  | nil => rw [put, lookup_cons_ite]
  | cons d r ih =>
    obtain ⟨n, w⟩ := d
    unfold put
    split
    · rw [lookup_cons_ite]
    · split
      · rename_i hk
        simp only at hk
        subst hk
        simp only [lookup_cons_ite]
        split <;> rfl
      · rename_i hne
        simp only at hne
        simp only [lookup_cons_ite, ih]
        by_cases hj : j = n
        · have hk : j ≠ k := fun e => hne (e.symm.trans hj)
          simp [hj, hj ▸ hk]
        · simp [hj]

@[simp] theorem get?_set (t : Table β) (k : String) (v : β) (j : String) :
    (t.set k v).get? j = if j = k then some v else t.get? j :=
  lookup_put k v t.entries j

theorem contains_set (t : Table β) (k : String) (v : β) (j : String) :
    (t.set k v).contains j = (j == k || t.contains j) := by
  unfold contains
  rw [get?_set]
  by_cases h : j = k <;> simp [h]

theorem get?_setNew (t : Table β) (k : String) (v : β) (j : String) :
    (t.setNew k v).get? j = if j = k ∧ t.get? k = none then some v else t.get? j := by
  unfold setNew contains
  cases hk : t.get? k with
  | none => simp
  | some w => simp

/-! ## What a table holds -/

theorem mem_values_put {k : String} {v w : β} {l : List (String × β)}
    (h : w ∈ (put k v l).map Prod.snd) : w = v ∨ w ∈ l.map Prod.snd := by
  obtain ⟨e, he, rfl⟩ := List.mem_map.1 h
  rcases mem_put he with rfl | he
  · exact .inl rfl
  · exact .inr (List.mem_map_of_mem he)

theorem mem_setAll {e : String × β} {l : List (String × β)} {t : Table β}
    (h : e ∈ (t.setAll l).entries) : e ∈ l ∨ e ∈ t.entries := by
  induction l generalizing t with
  | nil => exact .inr h
  | cons d l ih =>
    rcases ih h with h | h
    · exact .inl (List.mem_cons_of_mem _ h)
    · rcases mem_put h with rfl | h
      · exact .inl List.mem_cons_self
      · exact .inr h

theorem mem_values_setAll {w : β} {l : List (String × β)} {t : Table β}
    (h : w ∈ (t.setAll l).values) : w ∈ l.map Prod.snd ∨ w ∈ t.values := by
  obtain ⟨e, he, rfl⟩ := List.mem_map.1 h
  exact (mem_setAll he).imp (List.mem_map_of_mem (f := Prod.snd)) (List.mem_map_of_mem (f := Prod.snd))

end Table

end Stencil
