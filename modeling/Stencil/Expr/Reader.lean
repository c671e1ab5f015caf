import Stencil.Text.Split
import Stencil.Expr.Operand

/-!
# Readers

A reader turns a text into an expression, and tells beforehand whether the text is for it. Reading
never fails: what is not understood becomes raw text, which has no variables. In a chain the first
reader that the text is for reads it.
-/

namespace Stencil

structure Reader where
  supports : String → Bool
  read : String → Expr

namespace Expr

/-- The text as it is when it cannot be read. -/
def orRaw (text : String) : Except Fault Expr → Expr
  | .ok e => e
  | .error _ => raw text

/-- Reads a text with operators; a failure outside brackets leaves all of it raw. -/
def ofText (text : String) : Expr :=
  if Text.allBlank text then raw text else orRaw text (ofNested maxNesting text.toList)

/-- Reads a text as one operand. -/
def ofWord (text : String) : Expr :=
  if Text.allBlank text then raw text
  else orRaw text (ofOperand (ofNested (maxNesting - 1)) (Text.trim text.toList))

end Expr

namespace Reader

/-- The text contains the symbol of some operator. -/
def hasOperator (text : String) : Bool :=
  Operator.all.any fun op => Text.occurs op.chars text.toList

/-- Comparisons and connectives with a space on both sides. -/
def spacedOperators : List String :=
  [" > ", " < ", " >= ", " <= ", " == ", " != ", " && ", " || "]

def binary : Reader := ⟨hasOperator, Expr.ofText⟩

def conditional : Reader :=
  ⟨fun text => spacedOperators.any fun op => Text.occurs op.toList text.toList, Expr.ofText⟩

/-- One operand without a space or a tab. -/
def simple : Reader :=
  ⟨fun text => !text.toList.any fun c => c == ' ' || c == '\t', Expr.ofWord⟩

/-- Leaves every text as it is. -/
def verbatim : Reader := ⟨fun _ => true, .raw⟩

def chain (rs : List Reader) : Reader where
  supports text := rs.any (·.supports text)
  read text :=
    match rs.find? (·.supports text) with
    | some r => r.read text
    | none => .raw text

def standard : Reader := chain [conditional, binary, simple]

end Reader

/-- The readers that settings can name. -/
inductive ReaderKind
  | standard | binary | simple | conditional | verbatim
deriving DecidableEq

namespace ReaderKind

def label : ReaderKind → String
  | standard => "default" | binary => "binary" | simple => "simple" | conditional => "conditional"
  | verbatim => "noop"

def all : List ReaderKind := [standard, binary, simple, conditional, verbatim]

def ofLabel? (s : String) : Option ReaderKind := all.find? (·.label = s)

def reader : ReaderKind → Reader
  | standard => .standard | binary => .binary | simple => .simple | conditional => .conditional
  | verbatim => .verbatim

theorem ofLabel?_label (k : ReaderKind) : ofLabel? k.label = some k := by
  cases k <;> decide

end ReaderKind

end Stencil
