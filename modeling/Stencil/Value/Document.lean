import Stencil.Table
import Stencil.Document
import Stencil.Value.Basic

/-!
# Values of documents

Lists become lists, and objects become maps whose keys are texts in increasing order; of two
fields of one name the later one counts. A whole number becomes the narrowest integer that holds
it, and a float only beyond 64 bits.
-/

namespace Stencil.Value

mutual

def ofDocument : Document → Value
  | .null => null
  | .bool b => bool b
  | .int z => ofInt z
  | .float x => float x
  | .str s => str s
  | .list items => list (ofDocuments items)
  | .object fields => map ((Table.ofList (ofFields fields)).entries.map fun e => (str e.1, e.2))

def ofDocuments : List Document → List Value
  | [] => []
  | d :: r => ofDocument d :: ofDocuments r

def ofFields : List (String × Document) → List (String × Value)
  | [] => []
  | (k, d) :: r => (k, ofDocument d) :: ofFields r

end

end Stencil.Value
