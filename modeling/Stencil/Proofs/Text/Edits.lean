import Stencil.Text.Distance

/-!
# Edits

`Edits n s t` says that `t` comes out of `s` by at most `n` insertions, deletions and substitutions
of single characters, anywhere in the text and in any order. The distance of two texts is the least
such `n`: no edit brings a text nearer to another one by more than one, and going through both texts
from the left finds as many edits as the distance says.
-/

namespace Stencil.Text

inductive Edit : List Char → List Char → Prop
  | insert (u v : List Char) (c : Char) : Edit (u ++ v) (u ++ c :: v)
  | delete (u v : List Char) (c : Char) : Edit (u ++ c :: v) (u ++ v)
  | substitute (u v : List Char) (c d : Char) : Edit (u ++ c :: v) (u ++ d :: v)

inductive Edits : Nat → List Char → List Char → Prop
  | done {n : Nat} (s : List Char) : Edits n s s
  | step {n : Nat} {s t u : List Char} : Edit s t → Edits n t u → Edits (n + 1) s u

/-! ## One character more -/

theorem distance_comm (s t : List Char) : distance s t = distance t s := by
  induction s generalizing t with
  | nil => rw [distance_nil_left, distance_nil_right]
  | cons c s ihs =>
    induction t with
    | nil => rw [distance_nil_left, distance_nil_right]
    | cons d t iht =>
      rw [distance_cons_cons, distance_cons_cons, ihs t, ihs (d :: t), iht]
      by_cases h : c = d
      · rw [if_pos h, if_pos h.symm]
      · rw [if_neg h, if_neg (Ne.symm h)]
        omega

theorem distance_cons_le_of {s : List Char}
    (h : ∀ d t, distance s t ≤ distance s (d :: t) + 1) (c : Char) (t : List Char) :
    distance (c :: s) t ≤ distance s t + 1 := by
  cases t with
  | nil => exact Nat.le_of_eq (by rw [distance_nil_right, distance_nil_right, List.length_cons])
  | cons d t =>
    rw [distance_cons_cons]
    split
    · exact h d t
    · omega

theorem distance_le_cons_right (s : List Char) (d : Char) (t : List Char) :
    distance s t ≤ distance s (d :: t) + 1 := by
  induction s generalizing d t with
  | nil =>
    rw [distance_nil_left, distance_nil_left, List.length_cons]
    omega
  | cons c s ih =>
    have hc := distance_cons_le_of ih c t
    have hd := ih d t
    rw [distance_cons_cons]
    split <;> omega

theorem distance_cons_le (c : Char) (s t : List Char) : distance (c :: s) t ≤ distance s t + 1 :=
  distance_cons_le_of (distance_le_cons_right s) c t

theorem distance_le_cons (c : Char) (s t : List Char) : distance s t ≤ distance (c :: s) t + 1 := by
  rw [distance_comm s, distance_comm (c :: s)]
  exact distance_le_cons_right t c s

theorem distance_exchange_le (c d : Char) (s t : List Char) :
    distance (c :: s) t ≤ distance (d :: s) t + 1 := by
  induction t with
  | nil => rw [distance_nil_right, distance_nil_right, List.length_cons, List.length_cons]; omega
  | cons e t ih =>
    have hs := distance_le_cons d s t
    have ht := distance_le_cons_right s e t
    rw [distance_cons_cons, distance_cons_cons]
    split <;> split <;> omega

/-! ## One edit -/

theorem distance_cons_le_cons {s t : List Char} (h : ∀ u, distance s u ≤ distance t u + 1) (c : Char)
    (u : List Char) : distance (c :: s) u ≤ distance (c :: t) u + 1 := by
  induction u with
  | nil =>
    have := h []
    rw [distance_nil_right, distance_nil_right] at this ⊢
    exact Nat.succ_le_succ this
  | cons d u ih =>
    have hu := h u
    have hd := h (d :: u)
    rw [distance_cons_cons, distance_cons_cons]
    split <;> omega

theorem distance_append_le_append {s t : List Char} (h : ∀ u, distance s u ≤ distance t u + 1)
    (r u : List Char) : distance (r ++ s) u ≤ distance (r ++ t) u + 1 := by
  induction r generalizing u with
  | nil => exact h u
  | cons c r ih => exact distance_cons_le_cons ih c u

theorem Edit.distance_le {s t : List Char} (h : Edit s t) (u : List Char) :
    distance s u ≤ distance t u + 1 := by
  cases h with
  | insert r v c => exact distance_append_le_append (distance_le_cons c v) r u
  | delete r v c => exact distance_append_le_append (distance_cons_le c v) r u
  | substitute r v c d => exact distance_append_le_append (distance_exchange_le c d v) r u

theorem Edit.cons {s t : List Char} (h : Edit s t) (c : Char) : Edit (c :: s) (c :: t) := by
  cases h with
  | insert u v d => exact .insert (c :: u) v d
  | delete u v d => exact .delete (c :: u) v d
  | substitute u v d e => exact .substitute (c :: u) v d e

/-! ## Any edits -/

theorem Edits.cons {n : Nat} {s t : List Char} (h : Edits n s t) (c : Char) :
    Edits n (c :: s) (c :: t) := by
  induction h with
  | done s => exact .done (c :: s)
  | step he _ ih => exact .step (he.cons c) ih

theorem distance_self (s : List Char) : distance s s = 0 := by
  induction s with
  | nil => rfl
  | cons c s ih => rw [distance_cons_cons, if_pos rfl, ih]

theorem Edits.distance_le {n : Nat} {s t : List Char} (h : Edits n s t) : distance s t ≤ n := by
  induction h with
  | done s => rw [distance_self]; exact Nat.zero_le _
  | step he _ ih => exact Nat.le_trans (he.distance_le _) (Nat.succ_le_succ ih)

theorem edits_of_distance_le {n : Nat} {s t : List Char} (h : distance s t ≤ n) : Edits n s t := by
  induction s generalizing n t with
  | nil =>
    rw [distance_nil_left] at h
    induction t generalizing n with
    | nil => exact .done []
    | cons d t iht =>
      obtain ⟨n, rfl⟩ := Nat.exists_eq_add_one_of_ne_zero (Nat.ne_zero_of_lt h)
      exact .step (.insert [] [] d) ((iht (Nat.le_of_succ_le_succ h)).cons d)
  | cons c s ihs =>
    induction t generalizing n with
    | nil =>
      rw [distance_nil_right] at h
      obtain ⟨n, rfl⟩ := Nat.exists_eq_add_one_of_ne_zero (Nat.ne_zero_of_lt h)
      refine .step (.delete [] s c) (ihs ?_)
      rw [distance_nil_right]
      exact Nat.le_of_succ_le_succ h
    | cons d t iht =>
      rw [distance_cons_cons] at h
      split at h
      · rename_i hc
        exact hc ▸ (ihs h).cons c
      · -- The edit that comes first is the one that the least of the three distances is behind.
        obtain ⟨n, rfl⟩ := Nat.exists_eq_add_one_of_ne_zero (Nat.ne_zero_of_lt h)
        have h : distance s t ≤ n ∨ distance s (d :: t) ≤ n ∨ distance (c :: s) t ≤ n := by omega
        rcases h with h | h | h
        · exact .step (.substitute [] s c d) ((ihs h).cons d)
        · exact .step (.delete [] s c) (ihs h)
        · exact .step (.insert [] (c :: s) d) ((iht h).cons d)

/-- The distance is the least number of edits. -/
theorem distance_le_iff {n : Nat} {s t : List Char} : distance s t ≤ n ↔ Edits n s t :=
  ⟨edits_of_distance_le, Edits.distance_le⟩

end Stencil.Text
