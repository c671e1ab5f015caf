import Stencil.Naming.Element
import Stencil.Naming.Singular
import Stencil.Path.Basic

/-!
# The item of a loop

The item of a loop has the element type of what is looped over. Where that is not known, its type
is named by the singular of the last segment of the looped expression.
-/

namespace Stencil.Naming

def itemType (list listType : String) : String :=
  let element := elementType listType
  if element ≠ objectType then element
  else match (Path.ofText list).segments.getLast? with
    | some word => singular word
    | none => objectType

end Stencil.Naming
