import Stencil.Number.Double

/-!
# Expression trees

Conditions and values of a template are texts. Read, they become small trees of operators over
literals, variables and raw text; the variables are all that later checks look at.
-/

namespace Stencil

/-- The binary operators. -/
inductive Operator
  | or | and | ge | le | gt | lt | eq | ne | add | sub | mul | div | rem
deriving DecidableEq

namespace Operator

/-- The characters of the symbol. -/
def chars : Operator → List Char
  | or => ['|', '|'] | and => ['&', '&'] | ge => ['>', '='] | le => ['<', '='] | gt => ['>']
  | lt => ['<'] | eq => ['=', '='] | ne => ['!', '='] | add => ['+'] | sub => ['-'] | mul => ['*']
  | div => ['/'] | rem => ['%']

def symbol (op : Operator) : String := String.ofList op.chars

def all : List Operator := [or, and, ge, le, gt, lt, eq, ne, add, sub, mul, div, rem]

def ofSymbol? (s : String) : Option Operator := all.find? (·.symbol = s)

/-- `+` and `-` may also be the sign of an operand. -/
def isSign : Operator → Bool
  | add | sub => true
  | _ => false

theorem ofSymbol?_symbol (op : Operator) : ofSymbol? op.symbol = some op := by
  cases op <;> decide

end Operator

/-- The operators that bind equally tightly. -/
abbrev Level := List Operator

/-- All levels, the loosest first. -/
def levels : List Level :=
  [[.or], [.and], [.ge, .le], [.gt, .lt], [.eq, .ne], [.add, .sub], [.mul, .div, .rem]]

inductive Literal
  | null
  | int (value : Int32)
  | long (value : Int64)
  | float (value : Double)
  | str (value : String)
  | bool (value : Bool)
deriving DecidableEq

inductive Expr
  | literal (value : Literal)
  | identifier (name : String)
  | binary (left : Expr) (op : Operator) (right : Expr)
  /-- Text that is passed on as it stands. -/
  | raw (code : String)
deriving DecidableEq

namespace Expr

def isRaw : Expr → Bool
  | raw _ => true
  | _ => false

/-- The variables from left to right; raw text has none. -/
def identifiers : Expr → List String
  | identifier name => [name]
  | binary left _ right => left.identifiers ++ right.identifiers
  | literal _ | raw _ => []

end Expr

end Stencil
