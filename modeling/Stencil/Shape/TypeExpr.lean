import Stencil.Shape.Descriptor

/-!
# Type expressions

A type expression is a basic type inside wrappers. Containers are leaves named after what they
are; a type inside a transparent wrapper is described as if the wrapper were not there. Inside a
container such a wrapper still tells types apart.
-/

namespace Stencil

inductive Wrapper
  | vector | deque | hashSet | treeSet | hashMap | treeMap | array
  | optional | boxed | shared | counted
deriving DecidableEq

namespace Wrapper

/-- What the container is, and its name; transparent wrappers are none. -/
def container? : Wrapper → Option (LeafKind × String)
  | vector | deque => some (.collection, "List")
  | hashSet | treeSet => some (.collection, "Set")
  | hashMap | treeMap => some (.map, "Map")
  | array => some (.array, "Array")
  | optional | boxed | shared | counted => none

def spelling : Wrapper → String
  | vector => "vector" | deque => "deque" | hashSet => "hash set" | treeSet => "tree set"
  | hashMap => "hash map" | treeMap => "tree map" | array => "array" | optional => "optional"
  | boxed => "boxed" | shared => "shared" | counted => "counted"

end Wrapper

inductive TypeExpr
  | basic (type : Descriptor)
  | wrapped (wrapper : Wrapper) (inner : TypeExpr)
deriving DecidableEq

namespace TypeExpr

/-- The names of the primitive types. -/
def primitiveNames : List String :=
  ["bool", "char", "i8", "i16", "i32", "i64", "i128", "isize", "u8", "u16", "u32", "u64", "u128",
    "usize", "f32", "f64", "unit"]

def textNames : List String := ["String", "str"]

/-- The basic type of this name that every program has. -/
def builtin? (name : String) : Option Descriptor :=
  if primitiveNames.contains name then some (.leaf .primitive name name)
  else if textNames.contains name then some (.leaf .text name name)
  else none

/-- A text that no other type expression has. -/
def spelling : TypeExpr → String
  | basic (.leaf _ _ key) => key
  | basic (.record name index) => s!"{name}#{index}"
  | wrapped w t => w.spelling ++ " of " ++ t.spelling

def descriptor : TypeExpr → Descriptor
  | basic t => t
  | wrapped w t =>
    match w.container? with
    | some (kind, name) => .leaf kind name (wrapped w t).spelling
    | none => t.descriptor

end TypeExpr

end Stencil
