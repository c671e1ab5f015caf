import Stencil.Number.Double

/-!
# Numerals

A decimal numeral is a sign, digits with at most one point among or beside them, and an exponent.
An integer numeral is a sign and digits.
-/

namespace Stencil

/-- The number `± digits * 10 ^ exponent` as it was written. -/
structure Numeral where
  negative : Bool
  digits : Nat
  exponent : Int
deriving DecidableEq

namespace Numeral

/-- The number that decimal digits stand for. -/
def ofDigits (ds : List Char) : Nat :=
  ds.foldl (fun n d => 10 * n + (d.toNat - '0'.toNat)) 0

/-- A sign, which is minus or not, and the rest. -/
def sign : List Char → Bool × List Char
  | '-' :: r => (true, r)
  | '+' :: r => (false, r)
  | r => (false, r)

/-- Digits and nothing else, at least one. -/
def digits? (s : List Char) : Option Nat :=
  if s.isEmpty || !s.all Char.isDigit then none else some (ofDigits s)

def int? (s : List Char) : Option Int :=
  let (negative, r) := sign s
  (digits? r).map fun n => if negative then -(n : Int) else n

/-- What may follow the digits: nothing, or `e` and an integer. -/
def exponent? : List Char → Option Int
  | [] => some 0
  | c :: r => if c == 'e' || c == 'E' then int? r else none

/-- The digits after the point, and the rest. -/
def fraction : List Char → List Char × List Char
  | '.' :: r => r.span Char.isDigit
  | r => ([], r)

def read? (s : List Char) : Option Numeral :=
  let (negative, r) := sign s
  let (whole, r) := r.span Char.isDigit
  let (frac, r) := fraction r
  if whole.isEmpty && frac.isEmpty then none
  else (exponent? r).map fun e => ⟨negative, ofDigits (whole ++ frac), e - frac.length⟩

def toDouble (n : Numeral) : Double := .ofDecimal n.negative n.digits n.exponent

end Numeral

end Stencil
