import Mathlib
import Stencil.Text.Folding

/-!
# Texts of ASCII characters

Up to 0x7F the case maps and the fold turn every character into one ASCII character, so they do not
change the length of a text, and what differs in case only has the same fold.
-/

namespace Stencil.Text

def IsAscii (s : List Char) : Prop := ∀ c ∈ s, c.toNat < 0x80

instance (s : List Char) : Decidable (IsAscii s) := List.decidableBAll _ s

/-- The text with its first character in upper case. -/
def capitalize : List Char → List Char
  | [] => []
  | c :: r => upper c ++ r

/-! ## Characters -/

section
variable {c : Char} (h : c.toNat < 0x80)
include h

theorem upper_of_ascii : upper c = [c.toUpper] := by simp [upper, h]

theorem lower_of_ascii : lower c = [c.toLower] := by simp [lower, h]

theorem fold_of_ascii : fold c = c.toLower := by simp [fold, h]

theorem isUppercase_of_ascii : isUppercase c = c.isUpper := by simp [isUppercase, h]

theorem isLowercase_of_ascii : isLowercase c = c.isLower := by simp [isLowercase, h]

theorem isAlphabetic_of_ascii : isAlphabetic c = c.isAlpha := by simp [isAlphabetic, h]

theorem ascii_toUpper : c.toUpper.toNat < 0x80 := by
  by_cases hc : c.isLower
  · rw [Char.toUpper_eq_of_isLower hc, Char.toNat_ofNat]
    split <;> omega
  · rwa [Char.toUpper_eq_of_not_isLower hc]

end

theorem ascii_of_isLower {c : Char} (h : c.isLower = true) : c.toNat < 0x80 := by
  simp only [Char.isLower, Bool.and_eq_true, decide_eq_true_eq, UInt32.le_iff_toNat_le] at h
  exact Nat.lt_of_le_of_lt h.2 (by decide)

theorem fold_of_isLower {c : Char} (h : c.isLower = true) : fold c = c := by
  rw [fold_of_ascii (ascii_of_isLower h),
    Char.toLower_eq_of_not_isUpper (Char.not_isUpper_of_isLower h)]

/-! ## Texts -/

theorem any_congr_left {s : List Char} {p q : Char → Bool} (h : ∀ c ∈ s, p c = q c) :
    s.any p = s.any q := by
  induction s with
  | nil => rfl
  | cons c s ih =>
    obtain ⟨hc, hs⟩ := List.forall_mem_cons.1 h
    rw [List.any_cons, List.any_cons, hc, ih hs]

namespace IsAscii

variable {s t : List Char}

theorem of_cons {c : Char} (h : IsAscii (c :: s)) : c.toNat < 0x80 ∧ IsAscii s :=
  List.forall_mem_cons.1 h

theorem drop (h : IsAscii s) (n : Nat) : IsAscii (s.drop n) :=
  fun c hc => h c (List.mem_of_mem_drop hc)

theorem take (h : IsAscii s) (n : Nat) : IsAscii (s.take n) :=
  fun c hc => h c (List.mem_of_mem_take hc)

theorem toUpper (h : IsAscii s) : Text.toUpper s = s.map Char.toUpper := by
  unfold Text.toUpper
  induction s with
  | nil => rfl
  | cons c s ih =>
    obtain ⟨hc, hs⟩ := h.of_cons
    simp [upper_of_ascii hc, ih hs]

theorem map_toUpper (h : IsAscii s) : IsAscii (s.map Char.toUpper) := by
  intro c hc
  obtain ⟨d, hd, rfl⟩ := List.mem_map.1 hc
  exact ascii_toUpper (h d hd)

theorem map_fold (h : IsAscii s) : s.map fold = s.map Char.toLower :=
  List.map_congr_left fun c hc => fold_of_ascii (h c hc)

/-- The capital sigma is not an ASCII letter, so the neighbours do not count. -/
theorem toLower (h : IsAscii s) : Text.toLower s = s.map Char.toLower := by
  have hall : ∀ before, toLowerAfter before s = s.map Char.toLower := by
    induction s with
    | nil => intro before; rfl
    | cons c s ih =>
      intro before
      obtain ⟨hc, hs⟩ := h.of_cons
      have hne : c ≠ 'Σ' := by
        intro e
        rw [e] at hc
        exact absurd hc (by decide)
      simp [toLowerAfter, hne, lower_of_ascii hc, ih hs]
  exact hall []

theorem capitalize {c : Char} (h : IsAscii (c :: s)) :
    Text.capitalize (c :: s) = c.toUpper :: s := by
  simp [Text.capitalize, upper_of_ascii h.of_cons.1]

theorem ascii_capitalize (h : IsAscii s) : IsAscii (Text.capitalize s) := by
  cases s with
  | nil => exact h
  | cons c s =>
    rw [h.capitalize]
    exact List.forall_mem_cons.2 ⟨ascii_toUpper h.of_cons.1, h.of_cons.2⟩

theorem map_toLower_capitalize (h : IsAscii s) :
    (Text.capitalize s).map Char.toLower = s.map Char.toLower := by
  cases s with
  | nil => rfl
  | cons c s => simp [h.capitalize]

theorem toUpper_toUpper (h : IsAscii s) : Text.toUpper (Text.toUpper s) = Text.toUpper s := by
  rw [h.toUpper, h.map_toUpper.toUpper, List.map_map]
  exact List.map_congr_left fun c _ => Char.toUpper_toUpper_eq_toUpper c

theorem toUpper_capitalize (h : IsAscii s) : Text.toUpper (Text.capitalize s) = Text.toUpper s := by
  cases s with
  | nil => rfl
  | cons c s =>
    have hc := h.of_cons.1
    rw [h.capitalize, Text.toUpper, Text.toUpper, List.flatMap_cons, List.flatMap_cons,
      upper_of_ascii hc, upper_of_ascii (ascii_toUpper hc), Char.toUpper_toUpper_eq_toUpper]

end IsAscii

end Stencil.Text
