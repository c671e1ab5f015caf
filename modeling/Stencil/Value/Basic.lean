import Stencil.Number.Double
import Stencil.Number.Word
import Stencil.Text.Quoted
import Stencil.Naming.Element
import Stencil.Shape.Descriptor

/-!
# Values

Values of globals and bindings. Every value has a type name, and a display name that also shows
the types of the members of a collection: of the first one, since no other is looked at.
-/

namespace Stencil

inductive Value
  | null
  | bool (value : Bool)
  | int (value : Int32)
  | long (value : Int64)
  | float (value : Double)
  | str (value : String)
  | list (items : List Value)
  | array (component : Descriptor) (items : List Value)
  | map (entries : List (Value × Value))
  /-- A value whose fields its type tells. Two of them are equal only if they are one. -/
  | object (type : Descriptor) (identity : Nat)

namespace Value

def isNull : Value → Bool
  | null => true
  | _ => false

/-- The type of an object. -/
def objectType? : Value → Option Descriptor
  | object t _ => some t
  | _ => none

def typeName : Value → String
  | null => objectType
  | bool _ => "bool"
  | int _ => "i32"
  | long _ => "i64"
  | float _ => "f64"
  | str _ => "String"
  | list _ => "List"
  | array _ _ => "Array"
  | map _ => "Map"
  | object t _ => t.name

/-- The type name of a member that may be missing. -/
def memberName : Option Value → String
  | none => objectType
  | some v => v.typeName

def displayName : Value → String
  | list items => "List<" ++ memberName items.head? ++ ">"
  | array component _ => "Array<" ++ component.name ++ ">"
  | map entries =>
    "Map<" ++ memberName (entries.head?.map (·.1)) ++ "," ++ memberName (entries.head?.map (·.2))
      ++ ">"
  | v => v.typeName

mutual

/-- Equality of values; numbers of different types are different. -/
def same : Value → Value → Bool
  | null, null => true
  | bool a, bool b => a == b
  | int a, int b => a == b
  | long a, long b => a == b
  | float a, float b => a.same b
  | str a, str b => a == b
  | list as, list bs => sameItems as bs
  | array c as, array d bs => c == d && sameItems as bs
  | map es, map fs => sameEntries es fs
  | object t i, object u j => t == u && i == j
  | _, _ => false

def sameItems : List Value → List Value → Bool
  | [], [] => true
  | a :: as, b :: bs => a.same b && sameItems as bs
  | _, _ => false

def sameEntries : List (Value × Value) → List (Value × Value) → Bool
  | [], [] => true
  | (k, v) :: es, (l, w) :: fs => k.same l && v.same w && sameEntries es fs
  | _, _ => false

end

/-- The narrowest number that holds `z`. -/
def ofInt (z : Int) : Value :=
  (((int32? z).map int).or ((int64? z).map long)).getD (float (.ofInt z))

/-- What an object of the type shows of itself. -/
def objectText (t : Descriptor) : String :=
  "ObjectValue \x7b type: " ++ Text.quoted t.name ++ ", .. \x7d"

end Value

end Stencil
