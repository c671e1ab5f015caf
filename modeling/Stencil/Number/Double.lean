/-!
# Numbers of 64 bits with a binary point

A number is its bit pattern. `nearest` rounds a ratio of natural numbers to the nearest number,
a tie to the even one, in exact arithmetic.
-/

namespace Stencil

/-- A binary number of double precision, by its bits. -/
structure Double where
  bits : UInt64
deriving DecidableEq

namespace Double

def signBit : Nat := 0x8000000000000000

/-- The bits of positive infinity; the patterns above it are no numbers. -/
def infinityBits : Nat := 0x7FF0000000000000

/-- How many fractions a number of one exponent may have. -/
def fractions : Nat := 0x10000000000000

def magnitude (x : Double) : Nat := x.bits.toNat % signBit

def isNaN (x : Double) : Bool := infinityBits < x.magnitude

/-- Equality of the numbers: both zeros are one number, and a NaN equals nothing. -/
def same (x y : Double) : Bool :=
  !x.isNaN && !y.isNaN && (x == y || (x.magnitude == 0 && y.magnitude == 0))

/-- `num / den` to the nearest integer, a tie to the even one. -/
def roundDiv (num den : Nat) : Nat :=
  let q := num / den
  let r := num % den
  if den < 2 * r || (2 * r == den && q % 2 == 1) then q + 1 else q

/-- The greatest `k` with `2 ^ k ≤ num / den`, for positive numbers. -/
def floorLog (num den : Nat) : Int :=
  let k : Int := (num.log2 : Int) - (den.log2 : Int)
  if den * Nat.pow 2 k.toNat ≤ num * Nat.pow 2 (-k).toNat then k else k - 1

/-- The magnitude nearest to `num / den`. The exponent is chosen such that the fraction has 53
bits, or fewer below the least normal number; a carry out of the fraction goes into the
exponent. -/
def nearest (num den : Nat) : Nat :=
  if num = 0 then 0
  else
    let e := max (floorLog num den - 52) (-1074)
    let q := roundDiv (num * Nat.pow 2 (-e).toNat) (den * Nat.pow 2 e.toNat)
    min ((e + 1074).toNat * fractions + q) infinityBits

def ofMagnitude (negative : Bool) (m : Nat) : Double :=
  ⟨UInt64.ofNat (if negative then m + signBit else m)⟩

/-- The number nearest to `± digits * 10 ^ exponent`. Ten lies between eight and sixteen, so far
out of range the answer is known without the power. -/
def ofDecimal (negative : Bool) (digits : Nat) (exponent : Int) : Double :=
  ofMagnitude negative <|
    if digits = 0 ∨ (digits.log2 : Int) + 3 * exponent < -1080 ∧ exponent < 0 then 0
    else if 1024 ≤ (digits.log2 : Int) + 3 * exponent ∧ 0 ≤ exponent then infinityBits
    else nearest (digits * Nat.pow 10 exponent.toNat) (Nat.pow 10 (-exponent).toNat)

def ofInt (z : Int) : Double := ofDecimal (decide (z < 0)) z.natAbs 0

end Double

end Stencil
