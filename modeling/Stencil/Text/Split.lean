/-!
# Cutting texts at single characters

`cutAt` cuts at the first place only, `pieces` at every place and drops what is empty;
`occurs` looks for one text inside another.
-/

namespace Stencil.Text

/-- The text before the first `c`, and the text after it when there is one. -/
def cutAt (c : Char) : List Char → List Char × Option (List Char)
  | [] => ([], none)
  | d :: r => if d = c then ([], some r) else (d :: (cutAt c r).1, (cutAt c r).2)

/-- The pieces between the characters that satisfy `p`, without the empty ones. -/
def pieces (p : Char → Bool) (s : List Char) : List (List Char) :=
  (s.splitOnP p).filter (!·.isEmpty)

/-- `needle` stands somewhere in the text. -/
def occurs (needle : List Char) : List Char → Bool
  | [] => needle.isEmpty
  | c :: r => needle.isPrefixOf (c :: r) || occurs needle r

@[simp] theorem cutAt_nil (c : Char) : cutAt c [] = ([], none) := rfl

@[simp] theorem pieces_nil (p : Char → Bool) : pieces p [] = [] := rfl

/-- A cut loses nothing but the character it was made at. -/
theorem cutAt_some {c : Char} {s t : List Char} (h : (cutAt c s).2 = some t) :
    s = (cutAt c s).1 ++ c :: t := by
  induction s with
  | nil => simp at h
  | cons d r ih =>
    by_cases hd : d = c
    · simp_all [cutAt]
    · simp only [cutAt, hd, if_false] at h ⊢
      rw [List.cons_append, ← ih h]

end Stencil.Text
