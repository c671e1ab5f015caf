import Stencil.Text.CaseMap

/-!
# Simple case folding

Patterns tell characters apart by their fold alone: a character for a character, so that no text
changes its length. The letters of a pair that differ in case only have the same fold, and so have
the few further letters that stand for one of them, as the long s does.
-/

namespace Stencil.Text

/-- The letters that only their own case maps know. They fold to themselves. -/
def unpairedRanges : List (Nat × Nat) :=
  [(0x131, 0x131), (0xA7CE, 0xA7CF), (0xA7D2, 0xA7D5), (0x16EA0, 0x16ED3)]

/-- The letters that are folded together although their case maps are several letters long. -/
def foldExceptions : List (Char × Char) :=
  [('\u1fd3', '\u0390'), ('\u1fe3', '\u03b0'), ('\ufb05', '\ufb06')]

/-- The character that stands for all that differ from it in case only. -/
def fold (c : Char) : Char :=
  if c.toNat < 0x80 then c.toLower
  else if inRanges unpairedRanges c.toNat then c
  else
    (foldExceptions.lookup c).getD <|
      let u := single c (upper c)
      single u (lower u)

/-- The characters that are neither a fold nor the upper case of one. -/
def oddCases : List Char :=
  ([
    0xB5, 0x17F, 0x1C5, 0x1C8, 0x1CB, 0x1F2, 0x345, 0x3C2, 0x3D0, 0x3D1, 0x3D5, 0x3D6, 0x3F0,
    0x3F1, 0x3F4, 0x3F5, 0x1C80, 0x1C81, 0x1C82, 0x1C83, 0x1C84, 0x1C85, 0x1C86, 0x1C87, 0x1C88,
    0x1E9B, 0x1E9E, 0x1F88, 0x1F89, 0x1F8A, 0x1F8B, 0x1F8C, 0x1F8D, 0x1F8E, 0x1F8F, 0x1F98, 0x1F99,
    0x1F9A, 0x1F9B, 0x1F9C, 0x1F9D, 0x1F9E, 0x1F9F, 0x1FA8, 0x1FA9, 0x1FAA, 0x1FAB, 0x1FAC, 0x1FAD,
    0x1FAE, 0x1FAF, 0x1FBC, 0x1FBE, 0x1FCC, 0x1FD3, 0x1FE3, 0x1FFC, 0x2126, 0x212A, 0x212B,
    0xFB05] : List Nat).map Char.ofNat

/-- The odd characters by their folds. -/
def oddFolds : List (Char × Char) := oddCases.map fun c => (fold c, c)

/-- All characters with the fold of `c`. -/
def caseVariants (c : Char) : List Char :=
  let f := fold c
  let u := single f (upper f)
  (if u ≠ f ∧ fold u = f then [f, u] else [f]) ++ (oddFolds.filter (·.1 = f)).map (·.2)

/-- The code points that a case map changes. -/
def casedPoints : List Nat :=
  let points (first last step : Nat) : List Nat :=
    (List.range ((last - first) / step + 1)).map fun i => first + step * i
  points 0x41 0x5A 1 ++ points 0x61 0x7A 1
    ++ (upperShifts ++ lowerShifts).flatMap (fun s => points s.first s.last s.step)
    ++ (upperExpansions ++ lowerExpansions).map (·.1)

end Stencil.Text
