import Stencil.Shape.Discovery

/-!
# Keeping shapes

A store keeps shapes, at most one for each type, and gives names to types. A store whose shapes
expire at once holds none of them, but its names stay.
-/

namespace Stencil

/-- How long the shapes of a store stay. -/
inductive Retention
  | kept
  | none
deriving DecidableEq

structure Store where
  retention : Retention
  shapes : List Shape
  aliases : Table Descriptor
deriving DecidableEq

namespace Store

def empty (r : Retention) : Store := ⟨r, [], .empty⟩

def get? (s : Store) (t : Descriptor) : Option Shape := s.shapes.find? (·.type = t)

def contains (s : Store) (t : Descriptor) : Bool := (s.get? t).isSome

/-- Keeps a shape, if the store keeps any. -/
def put (s : Store) (shape : Shape) : Store :=
  match s.retention with
  | .kept => { s with shapes := s.shapes ++ [shape] }
  | .none => s

/-- The shape that is kept, or the one that is built now and kept; and whether it was built. -/
def getOrBuild (s : Store) (t : Descriptor) (build : Descriptor → Shape) : Shape × Bool × Store :=
  match s.get? t with
  | some shape => (shape, false, s)
  | none => (build t, true, s.put (build t))

def alias? (s : Store) (name : String) : Option Descriptor := s.aliases.get? name

/-- Names a type; without `overwrite` a name that is given stays. -/
def setAlias (s : Store) (name : String) (t : Descriptor) (overwrite : Bool) : Store :=
  { s with aliases := if overwrite then s.aliases.set name t else s.aliases.setNew name t }

def clear (s : Store) : Store := .empty s.retention

end Store

end Stencil
