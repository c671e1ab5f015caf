/-!
# Edit distance

The least number of insertions, deletions and substitutions of single characters that turn one
text into another. A row holds the distances to all ends of the second text, and one character
more of the first text makes the next row.
-/

namespace Stencil.Text

/-- The distances from the empty text to the ends of `t`. -/
def firstRow : List Char → List Nat
  | [] => [0]
  | _ :: t => (t.length + 1) :: firstRow t

/-- The row for `c :: s` from the row for `s`. -/
def nextRow (c : Char) : List Char → List Nat → List Nat
  | [], row => [row.headD 0 + 1]
  | d :: t, row =>
    let rest := nextRow c t row.tail
    let kept := row.tail.headD 0
    (if c = d then kept else min kept (min (row.headD 0) (rest.headD 0)) + 1) :: rest

def row (t : List Char) : List Char → List Nat
  | [] => firstRow t
  | c :: s => nextRow c t (row t s)

def distance (s t : List Char) : Nat := (row t s).headD 0

@[simp] theorem firstRow_headD (t : List Char) : (firstRow t).headD 0 = t.length := by
  cases t <;> rfl

theorem distance_nil_left (t : List Char) : distance [] t = t.length := firstRow_headD t

/-- The rows of an end of the second text are the ends of its rows. -/
theorem row_cons (d : Char) (t s : List Char) : (row (d :: t) s).tail = row t s := by
  induction s with
  | nil => rfl
  | cons c s ih => simp [row, nextRow, ih]

theorem distance_nil_right (s : List Char) : distance s [] = s.length := by
  induction s with
  | nil => rfl
  | cons c s ih => simpa [distance, row, nextRow] using ih

theorem distance_cons_cons (c d : Char) (s t : List Char) :
    distance (c :: s) (d :: t) =
      if c = d then distance s t
      else min (distance s t) (min (distance s (d :: t)) (distance (c :: s) t)) + 1 := by
  simp [distance, row, nextRow, row_cons]

end Stencil.Text
