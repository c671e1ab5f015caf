import Stencil.Table
import Stencil.Value.Basic
import Stencil.Shape.Catalog

/-!
# Global bindings

The caller of a template supplies values by name. A source may know a name without telling its
value. Before anything is checked, the types of the values can be registered with a catalog.
-/

namespace Stencil

/-- What is known of the global bindings. -/
structure GlobalSource where
  contains : String → Bool
  get? : String → Option Value
  names : List String

/-- Global bindings, in the order of their names. -/
abbrev Globals := Table Value

namespace Globals

/-- Binds a name if there is a value. -/
def setIfPresent (g : Globals) (name : String) : Option Value → Globals
  | some v => g.set name v
  | none => g

def source (g : Globals) : GlobalSource := ⟨g.contains, g.get?, g.keys⟩

end Globals

namespace Catalog

/-- Registers the type of an object; how many types that makes, and the catalog after it. -/
def registerObject (g : Graph) (c : Catalog) : Option Value → Nat × Catalog
  | some (.object t _) => (1, (c.shapeOf g t).2)
  | _ => (0, c)

/-- Registers the record that a value has, holds first, or is an array of. -/
def registerValue (g : Graph) (c : Catalog) : Value → Nat × Catalog
  | .object t i => c.registerObject g (some (.object t i))
  | .list items => c.registerObject g items.head?
  | .array component _ => if component.isLeaf then (0, c) else (1, (c.shapeOf g component).2)
  | .map entries => c.registerObject g (entries.head?.map (·.2))
  | _ => (0, c)

/-- Registers the types of all values of a source. -/
def registerGlobals (g : Graph) (c : Catalog) (source : GlobalSource) : Nat × Catalog :=
  (source.names.filterMap source.get?).foldl
    (fun (n, c) v => (n + (c.registerValue g v).1, (c.registerValue g v).2)) (0, c)

end Catalog

end Stencil
