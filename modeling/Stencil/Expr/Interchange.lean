import Stencil.Document
import Stencil.Number.Word
import Stencil.Expr.Basic

/-!
# Expressions as documents

A node of an expression is an object whose field `type` tells its kind, beside the fields of that
kind. A literal is an object of its `kind` and its `value`. Operators are written as symbols.

More is read than is written. Nodes and literals may be lists that start with their kind, and below
the root the kind of a node or of a listed literal may be told by its number.
-/

namespace Stencil

/-- A choice without content inside an expression: its name, or an object with that field alone,
which is null or has no fields. -/
def bareChoice? (d : Document) : Option String :=
  match d with
  | .str name | .object [(name, .null)] | .object [(name, .object [])] => some name
  | _ => none

def Operator.ofDocument? (d : Document) : Option Operator :=
  (bareChoice? d).bind Operator.ofSymbol?

namespace Literal

/-- The kinds in the order of their numbers. -/
def kinds : List String := ["null", "int", "long", "float", "str", "bool"]

def kind : Literal → String
  | null => "null" | int _ => "int" | long _ => "long" | float _ => "float" | str _ => "str"
  | bool _ => "bool"

/-- The content of a literal; null has none. -/
def content? : Literal → Option Document
  | null => none
  | int v => some (.int v.toInt)
  | long v => some (.int v.toInt)
  | float v => some (.float v)
  | str v => some (.str v)
  | bool v => some (.bool v)

def toDocument (l : Literal) : Document :=
  .object (("kind", .str l.kind) :: (l.content?.map fun c => ("value", c)).toList)

def ofContent? (kind : String) (content : Option Document) : Option Literal :=
  if kind = "null" then if Document.isVoid content then some .null else none
  else
    content.bind fun c =>
      if kind = "int" then (c.int?.bind int32?).map int
      else if kind = "long" then (c.int?.bind int64?).map long
      else if kind = "float" then c.double?.map float
      else if kind = "str" then c.str?.map str
      else if kind = "bool" then c.bool?.map bool
      else none

def ofDocument? (d : Document) : Option Literal :=
  match d with
  | .list [kind, content] =>
    (kind.nameAmong? kinds).bind fun kind => ofContent? kind (some content)
  | .object fields =>
    ((fields.lookup "kind").bind bareChoice?).bind fun kind => ofContent? kind (fields.lookup "value")
  | _ => none

end Literal

namespace Expr

/-- The kinds of nodes in the order of their numbers. -/
def kinds : List String := ["literal", "identifier", "binary", "raw"]

def toDocument : Expr → Document
  | literal v => .object [("type", .str "literal"), ("value", v.toDocument)]
  | identifier n => .object [("type", .str "identifier"), ("name", .str n)]
  | binary l op r =>
    .object [("type", .str "binary"), ("left", l.toDocument), ("op", .str op.symbol),
      ("right", r.toDocument)]
  | raw c => .object [("type", .str "raw"), ("code", .str c)]

/-- A field of a node: the document, and the expression it would be. -/
abbrev Field := Document × Option Expr

/-- The node of the given kind whose fields the function finds by their names. -/
def ofFields? (kind : String) (field : String → Option Field) : Option Expr :=
  if kind = "literal" then
    (field "value").bind fun f => (Literal.ofDocument? f.1).map literal
  else if kind = "identifier" then (field "name").bind fun f => f.1.str?.map identifier
  else if kind = "binary" then do
    let left ← (← field "left").2
    let op ← Operator.ofDocument? (← field "op").1
    let right ← (← field "right").2
    return binary left op right
  else if kind = "raw" then (field "code").bind fun f => f.1.str?.map raw
  else none

/-- The names of the fields of a node, in the order in which a list holds them. -/
def fieldNames (kind : String) : List String :=
  if kind = "literal" then ["value"]
  else if kind = "identifier" then ["name"]
  else if kind = "binary" then ["left", "op", "right"]
  else if kind = "raw" then ["code"]
  else []

mutual

/-- A node below the root. -/
def ofInner? : Document → Option Expr
  | .object fields =>
    ((fields.lookup "type").bind (·.nameAmong? kinds)).bind fun kind =>
      ofFields? kind ((fieldsOf fields).lookup ·)
  | .list (kind :: items) =>
    (kind.nameAmong? kinds).bind fun kind =>
      if items.length = (fieldNames kind).length then
        ofFields? kind (((fieldNames kind).zip (itemsOf items)).lookup ·)
      else none
  | _ => none

def fieldsOf : List (String × Document) → List (String × Field)
  | [] => []
  | (n, d) :: r => (n, d, ofInner? d) :: fieldsOf r

def itemsOf : List Document → List Field
  | [] => []
  | d :: r => (d, ofInner? d) :: itemsOf r

end

/-- What tells the kind of a node. -/
def tag? : Document → Option Document
  | .object fields => fields.lookup "type"
  | .list (kind :: _) => some kind
  | _ => none

/-- The expression that a document stands for, whose root tells its kind by name. -/
def ofDocument? (d : Document) : Option Expr :=
  if ((tag? d).bind Document.str?).isSome then ofInner? d else none

end Expr

end Stencil
