import Stencil.Proofs.Expr.Decimals

/-!
# Integers

An integer is spelled by the digits of its magnitude, by any number of zeros before them, and by a
sign. Every spelling is read as the narrowest integer literal that holds the number, and one of a
number that no word of 64 bits holds stays raw.
-/

namespace Stencil

/-- The digits of a number behind so many zeros. -/
def zerosAndDigits (k n : Nat) : List Char := List.replicate k '0' ++ Nat.toDigits 10 n

/-- Zero has either sign. -/
inductive IsSpelling : Int → List Char → Prop
  | plain (k n : Nat) : IsSpelling n (zerosAndDigits k n)
  | plus (k n : Nat) : IsSpelling n ('+' :: zerosAndDigits k n)
  | minus (k n : Nat) : IsSpelling (-n) ('-' :: zerosAndDigits k n)

/-! ## Digits -/

theorem isDigits_zerosAndDigits (k n : Nat) : IsDigits (zerosAndDigits k n) := by
  refine ⟨List.append_ne_nil_of_right_ne_nil _ Nat.toDigits_ne_nil, fun c hc => ?_⟩
  rcases List.mem_append.1 hc with hc | hc
  · rw [List.eq_of_mem_replicate hc]
    rfl
  · exact Nat.isDigit_of_mem_toDigits (by omega) (by omega) hc

theorem ofDigits_zerosAndDigits (k n : Nat) : Numeral.ofDigits (zerosAndDigits k n) = n :=
  calc Numeral.ofDigits (zerosAndDigits k n)
      = Nat.ofDigitChars 10 (Nat.toDigits 10 n) (Nat.ofDigitChars 10 (List.replicate k '0') 0) :=
        Nat.ofDigitChars_append 0
    _ = Nat.ofDigitChars 10 (Nat.toDigits 10 n) 0 := by rw [Nat.ofDigitChars_replicate_zero, Nat.mul_zero]
    _ = n := Nat.ofDigitChars_ten_toDigits

theorem IsSpelling.spellsInt {z : Int} {t : List Char} (h : IsSpelling z t) : SpellsInt z t := by
  have hd := isDigits_zerosAndDigits
  cases h with
  | plain k n =>
    have h := SpellsInt.plain (hd k n)
    rwa [ofDigits_zerosAndDigits] at h
  | plus k n =>
    have h := SpellsInt.plus (hd k n)
    rwa [ofDigits_zerosAndDigits] at h
  | minus k n =>
    have h := SpellsInt.minus (hd k n)
    rwa [ofDigits_zerosAndDigits] at h

/-! ## Readers -/

/-- The literal of an integer, or its spelling if there is none. -/
def Expr.ofInteger (z : Int) (spelling : String) : Expr :=
  if -0x80000000 ≤ z ∧ z < 0x80000000 then .literal (.int (.ofInt z))
  else if -0x8000000000000000 ≤ z ∧ z < 0x8000000000000000 then .literal (.long (.ofInt z))
  else .raw spelling

theorem SpellsInt.isStem {z : Int} {t : List Char} (h : SpellsInt z t) : IsStem t := by
  cases h with
  | plain hd => exact hd.isStem
  | plus hd => exact ⟨['+'], _, rfl, .inr (.inl rfl), hd.1, fun c hc => isNameChar_of_digit (hd.2 c hc)⟩
  | minus hd => exact ⟨['-'], _, rfl, .inr (.inr rfl), hd.1, fun c hc => isNameChar_of_digit (hd.2 c hc)⟩

theorem SpellsInt.orRaw_ofToken {z : Int} {t : List Char} (h : SpellsInt z t) (text : String) :
    Expr.orRaw text (Expr.ofToken t) = Expr.ofInteger z text := by
  rw [h.ofToken, Literal.ofInt?, int32?, int64?, Expr.ofInteger]
  split_ifs <;> rfl

/-- However an integer is spelled, every reader of numbers reads it as the literal of 32 bits that has
its value, else as the one of 64 bits, and leaves it as it is if there is neither. -/
theorem integers_exact {z : Int} {t : List Char} (h : IsSpelling z t) :
    ∀ r ∈ [Reader.simple, Reader.binary, Reader.standard],
      r.read (String.ofList t) = Expr.ofInteger z (String.ofList t) := by
  have hint := h.spellsInt
  have hstem := hint.isStem
  have hbinary : Reader.binary.read (String.ofList t) = Expr.ofInteger z (String.ofList t) := by
    rw [hstem.binary_read, hint.orRaw_ofToken]
  intro r hr
  simp only [List.mem_cons, List.not_mem_nil, or_false] at hr
  rcases hr with rfl | rfl | rfl
  · rw [simple_read_operand hstem.isOperand hstem.enclosed, hint.orRaw_ofToken]
  · exact hbinary
  · rw [standard_read_operand hstem.isOperand (oneWord_of_numberChars hint.chars), hbinary]

/-- The least integers of 32 and of 64 bits, the first one above 32 bits, and the first one out of range. -/
theorem integers_exact_limits :
    Reader.standard.read "-002147483648" = .literal (.int (-2147483648)) ∧
    Reader.simple.read "+2147483648" = .literal (.long 2147483648) ∧
    Reader.binary.read "-9223372036854775808" = .literal (.long (-9223372036854775808)) ∧
    Reader.standard.read "09223372036854775808" = .raw "09223372036854775808" := by
  have hint : IsSpelling (-2147483648) "-002147483648".toList := .minus 2 2147483648
  have hlong : IsSpelling 2147483648 "+2147483648".toList := .plus 0 2147483648
  have hleast : IsSpelling (-9223372036854775808) "-9223372036854775808".toList :=
    .minus 0 9223372036854775808
  have hout : IsSpelling 9223372036854775808 "09223372036854775808".toList := .plain 1 9223372036854775808
  refine ⟨?_, ?_, ?_, ?_⟩
  · exact (integers_exact hint .standard (by simp)).trans (by decide)
  · exact (integers_exact hlong .simple (by simp)).trans (by decide)
  · exact (integers_exact hleast .binary (by simp)).trans (by decide)
  · exact (integers_exact hout .standard (by simp)).trans (by decide)

end Stencil
