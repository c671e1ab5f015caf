import Stencil.Table
import Stencil.Naming.Property
import Stencil.Shape.Descriptor

/-!
# Discovering the fields of a type

Fields of a record count first, and of two fields of one name the later one. An accessor adds its
property unless there is a field of that name already; an accessor that adds nothing leaves a
warning. Leaves have no fields.
-/

namespace Stencil

/-- Why an accessor adds no field. -/
inductive Warning
  | duplicate (type member property : String)
  | noGetter (type member : String)
deriving DecidableEq

def Warning.message : Warning → String
  | duplicate type member property => type ++ "::" ++ member ++ " duplicates property '" ++ property ++ "'"
  | noGetter type member => type ++ "::" ++ member ++ " is not a getter-style accessor"

/-- The fields of one type. -/
structure Shape where
  type : Descriptor
  fields : Table Descriptor
deriving DecidableEq

structure Discovery where
  fields : Table Descriptor
  warnings : List Warning
deriving DecidableEq

namespace Discovery

def addAccessor (owner : String) (d : Discovery) (m : Member) : Discovery :=
  match Naming.property? m.name m.type.isBool with
  | none => { d with warnings := d.warnings ++ [.noGetter owner m.name] }
  | some p =>
    if d.fields.contains p then { d with warnings := d.warnings ++ [.duplicate owner m.name p] }
    else { d with fields := d.fields.set p m.type }

/-- The declared fields of the members. -/
def declared (ms : List Member) : Table Descriptor :=
  .ofList ((ms.filter (!·.isAccessor)).map fun m => (m.name, m.type))

def ofMembers (owner : String) (ms : List Member) : Discovery :=
  (ms.filter (·.isAccessor)).foldl (addAccessor owner) ⟨declared ms, []⟩

end Discovery

namespace Graph

def discover (g : Graph) (t : Descriptor) : Discovery := .ofMembers t.name (g.members t)

def shape (g : Graph) (t : Descriptor) : Shape := ⟨t, (g.discover t).fields⟩

end Graph

namespace Shape

def isLeaf (s : Shape) : Bool := s.type.isLeaf

def field? (s : Shape) (name : String) : Option Descriptor := s.fields.get? name

def names (s : Shape) : List String := s.fields.keys

end Shape

end Stencil
