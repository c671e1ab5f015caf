/-!
# White space

The characters with the Unicode property White_Space, and a text without them at its ends.
A trimmed text neither starts nor ends with one of them.
-/

namespace Stencil.Text

/-- The 25 code points of the property White_Space. -/
def isBlank (c : Char) : Bool :=
  let n := c.toNat
  (9 ≤ n && n ≤ 13) || n == 0x20 || n == 0x85 || n == 0xA0 || n == 0x1680 ||
    (0x2000 ≤ n && n ≤ 0x200A) || n == 0x2028 || n == 0x2029 || n == 0x202F || n == 0x205F ||
    n == 0x3000

def trimStart (s : List Char) : List Char := s.dropWhile isBlank

def trimEnd (s : List Char) : List Char := (s.reverse.dropWhile isBlank).reverse

def trim (s : List Char) : List Char := trimEnd (trimStart s)

/-- The text has no character but white space. -/
def allBlank (s : String) : Bool := s.toList.all isBlank

/-- `trim` on strings. -/
def trimmed (s : String) : String := String.ofList (trim s.toList)

@[simp] theorem trim_nil : trim [] = [] := rfl

theorem head_trimStart {c : Char} {r s : List Char} (h : trimStart s = c :: r) : isBlank c = false := by
  induction s with
  | nil => cases h
  | cons d s ih =>
    by_cases hd : isBlank d
    · exact ih (by simpa [trimStart, hd] using h)
    · rw [trimStart, List.dropWhile_cons_of_neg hd] at h
      cases h; simpa using hd

end Stencil.Text
