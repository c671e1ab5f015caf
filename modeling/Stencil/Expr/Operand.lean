import Stencil.Text.Blank
import Stencil.Number.Numeral
import Stencil.Number.Word
import Stencil.Expr.Cut

/-!
# Reading expressions

`Expr.climb` cuts a text at the loosest level, reads the operands at the levels above, and joins
them from the left. At the tightest level stands an operand: a bracketed text, a number, a quoted
string, a truth value, a variable, or raw text. Only brackets nest; a bracketed text that cannot
be read is raw text, and that is where its failure ends.
-/

namespace Stencil

/-- Why a text cannot be read. -/
inductive Fault
  /-- Brackets are nested too deeply. -/
  | tooDeep
  /-- Brackets or quotes do not balance. -/
  | unbalanced
  /-- A whole number does not fit 64 bits. -/
  | outOfRange
deriving DecidableEq

/-- How deeply brackets may nest. -/
def maxNesting : Nat := 256

namespace Literal

/-- The narrower of the two integer literals that holds `z`. -/
def ofInt? (z : Int) : Option Literal :=
  ((int32? z).map .int).or ((int64? z).map .long)

/-- A text that starts like a number, has a digit and is a decimal numeral is a number: with a
point a float, else an integer. -/
def number? (t : List Char) : Option (Except Fault Literal) :=
  match t with
  | [] => none
  | c :: _ =>
    if !(c.isDigit || c == '+' || c == '-' || c == '.') || !t.any Char.isDigit then none
    else
      (Numeral.read? t).map fun n =>
        if t.contains '.' then .ok (.float n.toDouble)
        else match (Numeral.int? t).bind ofInt? with
          | some l => .ok l
          | none => .error .outOfRange

/-- The text between two quotes of one kind. -/
def quoted? : List Char → Option (List Char)
  | [] => none
  | q :: r => if Scan.isQuote q && r.getLast? == some q then some r.dropLast else none

/-- A word for a truth value, in letters of either case. -/
def truth? (t : List Char) : Option Bool :=
  let w := t.map Char.toLower
  if w = "true".toList then some true else if w = "false".toList then some false else none

end Literal

/-- The names of variables, dotted paths included. -/
def isIdentifier : List Char → Bool
  | [] => false
  | c :: r => (c.isAlpha || c == '_') && r.all fun d => d.isAlphanum || d == '_' || d == '.'

namespace Expr

/-- An operand that is no bracketed text. -/
def ofToken (t : List Char) : Except Fault Expr :=
  match Literal.number? t with
  | some n => n.map literal
  | none =>
    match Literal.quoted? t with
    | some s => .ok (literal (.str (String.ofList s)))
    | none =>
      match Literal.truth? t with
      | some b => .ok (literal (.bool b))
      | none =>
        if isIdentifier t then .ok (identifier (String.ofList t)) else .ok (raw (String.ofList t))

/-- A trimmed operand; `inside` reads the text in its brackets. -/
def ofOperand (inside : List Char → Except Fault Expr) (t : List Char) : Except Fault Expr :=
  if t.isEmpty then .ok (literal .null)
  else match enclosed t with
    | some body =>
      match inside body with
      | .ok e => .ok e
      | .error _ => .ok (raw (String.ofList t))
    | none => ofToken t

/-- Reads a text that has operators of the given levels only. -/
def climb (inside : List Char → Except Fault Expr) : List Level → List Char → Except Fault Expr
  | [], text => ofOperand inside (Text.trim text)
  | ops :: tighter, text => do
    let t := Text.trim text
    match marks t with
    | none => throw .unbalanced
    | some ms =>
      let k := cut ops (t.zip ms)
      let left ← climb inside tighter k.head
      k.tail.foldlM (fun l (op, right) => return binary l op (← climb inside tighter right)) left

/-- Reads a text in which brackets may nest so deeply. -/
def ofNested : Nat → List Char → Except Fault Expr
  | 0 => climb (fun _ => .error .tooDeep) levels
  | n + 1 => climb (ofNested n) levels

end Expr

end Stencil
