/-!
# Words

Integers of 32 and 64 bits: an integer is one of them exactly when it is in its range.
-/

namespace Stencil

def int32? (z : Int) : Option Int32 :=
  if -0x80000000 ≤ z ∧ z < 0x80000000 then some (.ofInt z) else none

def int64? (z : Int) : Option Int64 :=
  if -0x8000000000000000 ≤ z ∧ z < 0x8000000000000000 then some (.ofInt z) else none

/-- A natural number of 64 bits. -/
def word64? (n : Nat) : Option UInt64 :=
  if n < 0x10000000000000000 then some (.ofNat n) else none

theorem toInt_of_int32? {z : Int} {v : Int32} (h : int32? z = some v) : v.toInt = z := by
  unfold int32? at h
  split at h
  · rename_i hz
    cases h
    exact Int32.toInt_ofInt_of_le hz.1 hz.2
  · cases h

theorem toInt_of_int64? {z : Int} {v : Int64} (h : int64? z = some v) : v.toInt = z := by
  unfold int64? at h
  split at h
  · rename_i hz
    cases h
    exact Int64.toInt_ofInt_of_le hz.1 hz.2
  · cases h

theorem int32?_eq_none_iff {z : Int} : int32? z = none ↔ ¬ (-0x80000000 ≤ z ∧ z < 0x80000000) := by
  unfold int32?
  split <;> simp [*]

theorem int32?_toInt (v : Int32) : int32? v.toInt = some v := by
  rw [int32?, if_pos ⟨Int32.le_toInt v, Int32.toInt_lt v⟩, Int32.ofInt_toInt]

theorem int64?_toInt (v : Int64) : int64? v.toInt = some v := by
  rw [int64?, if_pos ⟨Int64.le_toInt v, Int64.toInt_lt v⟩, Int64.ofInt_toInt]

end Stencil
