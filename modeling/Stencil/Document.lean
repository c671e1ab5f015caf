import Stencil.Number.Double

/-!
# Documents

Trees of plain data, the form in which values come in and expressions and reports are passed on.
A record may be written as an object or as the list of its fields in order. A choice is written as
its name, or as an object whose only field has that name and holds the content.
-/

namespace Stencil

inductive Document
  | null
  | bool (value : Bool)
  | int (value : Int)
  | float (value : Double)
  | str (value : String)
  | list (items : List Document)
  | object (fields : List (String × Document))

namespace Document

def bool? : Document → Option Bool
  | bool b => some b
  | _ => none

def str? : Document → Option String
  | str s => some s
  | _ => none

def int? : Document → Option Int
  | int z => some z
  | _ => none

/-- A float; a whole number counts as one. -/
def double? : Document → Option Double
  | float x => some x
  | int z => some (.ofInt z)
  | _ => none

def list? : Document → Option (List Document)
  | list ds => some ds
  | _ => none

def strs? (d : Document) : Option (List String) := d.list?.bind (·.mapM str?)

/-- A text that may be missing, or null in its place. -/
def optionalStr? : Option Document → Option (Option String)
  | none | some null => some none
  | some d => d.str?.map some

/-- The fields of a record with these names; other fields of an object count for nothing. -/
def record? (names : List String) : Document → Option (List (Option Document))
  | object fields => some (names.map fun n => fields.lookup n)
  | list items => if items.length = names.length then some (items.map some) else none
  | _ => none

/-- The name of a choice, and its content. -/
def choice? : Document → Option (String × Option Document)
  | str s => some (s, none)
  | object [(name, content)] => some (name, some content)
  | _ => none

/-- One of the names, by itself or by its place among them. -/
def nameAmong? (names : List String) : Document → Option String
  | str s => if names.contains s then some s else none
  | int z => if 0 ≤ z then names[z.toNat]? else none
  | _ => none

/-- The content of a choice that has none to tell. -/
def isVoid : Option Document → Bool
  | none | some null => true
  | _ => false

end Document

end Stencil
