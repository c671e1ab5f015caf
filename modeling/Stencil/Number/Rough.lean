import Stencil.Number.Numeral

/-!
# Numbers of documents

A number in a document is read in steps: the leading digits that 64 bits hold are rounded, and the
result is scaled by a rounded power of ten and rounded again. With many digits or a large exponent
it may lie beside the nearest number.
-/

namespace Stencil

namespace Double

/-- The value of a magnitude, in units of the least positive number. -/
def units (m : Nat) : Nat :=
  let e := m / fractions
  if e = 0 then m else (fractions + m % fractions) * Nat.pow 2 (e - 1)

/-- How many of these units are one. -/
def unitsOfOne : Nat := Nat.pow 2 1074

def mul (m n : Nat) : Nat := nearest (units m * units n) (unitsOfOne * unitsOfOne)

def div (m n : Nat) : Nat := nearest (units m) (units n)

def powerOfTen (n : Nat) : Nat := nearest (Nat.pow 10 n) 1

/-- The largest exponent of a power of ten that is finite. -/
def maxPower : Nat := 308

/-- The magnitude times a power of ten; very small ones take several steps. -/
def scale (m : Nat) (exponent : Int) : Nat :=
  if 0 ≤ exponent then
    if exponent ≤ maxPower then mul m (powerOfTen exponent.toNat)
    else if m = 0 then 0 else infinityBits
  else if -exponent ≤ maxPower then div m (powerOfTen (-exponent).toNat)
  else if m = 0 then 0
  else scale (div m (powerOfTen maxPower)) (exponent + maxPower)
termination_by (-exponent).toNat
decreasing_by simp only [maxPower] at *; omega

end Double

namespace Numeral

/-- The digits that 64 bits hold, with a larger exponent for each that is left out. -/
def shortened (digits : Nat) (exponent : Int) : Nat × Int :=
  if digits < 0x10000000000000000 then (digits, exponent)
  else shortened (digits / 10) (exponent + 1)
termination_by digits

def roughDouble (n : Numeral) : Double :=
  let (digits, exponent) := shortened n.digits n.exponent
  .ofMagnitude n.negative (Double.scale (Double.nearest digits 1) exponent)

end Numeral

end Stencil
