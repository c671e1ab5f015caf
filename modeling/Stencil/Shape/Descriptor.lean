/-!
# Types of values

A type is a leaf, which has no fields, or a record, whose members stand in the graph of types. Two
types are one type exactly when their descriptors are equal: the key of a leaf and the index of a
record tell apart types of one name. Records may refer to each other in circles.
-/

namespace Stencil

/-- What a type without fields is. -/
inductive LeafKind
  | primitive | text | array | collection | map | enumeration | hidden
deriving DecidableEq

namespace LeafKind

def label : LeafKind → String
  | primitive => "primitive" | text => "str" | array => "array" | collection => "collection"
  | map => "map" | enumeration => "enum" | hidden => "opaque"

def all : List LeafKind := [primitive, text, array, collection, map, enumeration, hidden]

def ofLabel? (s : String) : Option LeafKind := all.find? (·.label = s)

end LeafKind

inductive Descriptor
  | leaf (kind : LeafKind) (name key : String)
  | record (name : String) (index : Nat)
deriving DecidableEq

namespace Descriptor

def name : Descriptor → String
  | leaf _ name _ => name
  | record name _ => name

def leafKind? : Descriptor → Option LeafKind
  | leaf kind _ _ => some kind
  | record _ _ => none

def isLeaf (t : Descriptor) : Bool := t.leafKind?.isSome

/-- The type of truth values. -/
def bool : Descriptor := leaf .primitive "bool" "bool"

def isBool (t : Descriptor) : Bool := t == bool

end Descriptor

/-- A member of a record: a field, or an accessor that may stand for a property. -/
structure Member where
  name : String
  isAccessor : Bool
  type : Descriptor
deriving DecidableEq

/-- The members of all records, by the records' indices. -/
structure Graph where
  records : List (List Member)
deriving DecidableEq

namespace Graph

def members (g : Graph) : Descriptor → List Member
  | .record _ index => g.records.getD index []
  | .leaf _ _ _ => []

/-- All types that some member has. -/
def memberTypes (g : Graph) : List Descriptor := g.records.flatten.map (·.type)

theorem type_mem_memberTypes {g : Graph} {t : Descriptor} {m : Member} (h : m ∈ g.members t) :
    m.type ∈ g.memberTypes := by
  unfold members at h
  split at h
  · rename_i index
    refine List.mem_map.2 ⟨m, List.mem_flatten.2 ⟨_, ?_, h⟩, rfl⟩
    rw [List.getD_eq_getElem?_getD] at h ⊢
    cases hg : g.records[index]? with
    | none => simp [hg] at h
    | some ms => simpa [hg] using List.mem_of_getElem? hg
  · cases h

end Graph

end Stencil
