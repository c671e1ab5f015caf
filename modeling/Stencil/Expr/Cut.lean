import Stencil.Expr.Basic
import Stencil.Expr.Mark

/-!
# Cutting a text at the operators of one level

A cut is a first operand and, for each operator from left to right, the operator and the operand
after it. Operators are looked for at the top only and never at the first character. A plus or
minus after another operator character, or after nothing, is the sign of an operand. Operands and
operators written one after the other give the text back.
-/

namespace Stencil

/-- A text with its marks. -/
abbrev Marked := List (Char × Bool)

/-- The white space that a sign looks back over. -/
def isPlainBlank (c : Char) : Bool :=
  c == ' ' || c == '\t' || c == '\n' || c == '\x0c' || c == '\r'

/-- After these characters a plus or minus is a sign. -/
def beforeSign (c : Char) : Bool :=
  "+-*/%<>=!&|(".toList.contains c

/-- Whether a plus or minus would be a sign after `c`, given whether it would be one before. -/
def signAfter (sign : Bool) (c : Char) : Bool :=
  if isPlainBlank c then sign else beforeSign c

/-- The symbol stands at the top where the marked text starts. -/
def symbolAt : List Char → Marked → Bool
  | [], _ => true
  | s :: ss, (c, top) :: m => s == c && top && symbolAt ss m
  | _ :: _, [] => false

/-- The first operator of the level that stands where the marked text starts. -/
def operatorAt (ops : Level) (sign : Bool) (m : Marked) : Option Operator :=
  ops.find? fun op => symbolAt op.chars m && !(op.isSign && sign)

structure Cut where
  head : List Char
  tail : List (Operator × List Char)
deriving DecidableEq

namespace Cut

def push (c : Char) (k : Cut) : Cut := { k with head := c :: k.head }

/-- A new first operand, which is empty so far, and the operator after it. -/
def start (op : Operator) (k : Cut) : Cut := ⟨[], (op, k.head) :: k.tail⟩

/-- The text that was cut. -/
def join (k : Cut) : List Char :=
  k.head ++ k.tail.flatMap fun (op, t) => op.chars ++ t

end Cut

/-- The cut of the text from here on. `sign` tells whether a plus or minus would be a sign here,
`skip` how many characters belong to the symbol before. -/
def cutFrom (ops : Level) : Bool → Nat → Marked → Cut
  | _, _, [] => ⟨[], []⟩
  | sign, skip + 1, _ :: m => cutFrom ops sign skip m
  | sign, 0, (c, top) :: m =>
    match operatorAt ops sign ((c, top) :: m) with
    | some op => (cutFrom ops true (op.chars.length - 1) m).start op
    | none => (cutFrom ops (signAfter sign c) 0 m).push c

def cut (ops : Level) : Marked → Cut
  | [] => ⟨[], []⟩
  | (c, _) :: m => (cutFrom ops (signAfter true c) 0 m).push c

@[simp] theorem cut_nil (ops : Level) : cut ops [] = ⟨[], []⟩ := rfl

@[simp] theorem join_push (c : Char) (k : Cut) : (k.push c).join = c :: k.join := rfl

@[simp] theorem join_start (op : Operator) (k : Cut) :
    (k.start op).join = op.chars ++ k.join := by
  simp [Cut.start, Cut.join]

end Stencil
