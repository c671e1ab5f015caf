import Stencil.Text.Split
import Stencil.Text.Distance

/-!
# Variable paths

`order.items[0].id` is the path `order`, `items`, `0`, `id`: points and brackets only separate.
Paths are ordered by their first different segment, and a path stands before its continuations.
-/

namespace Stencil

/-- The part of an expression before its first point: the variable. -/
def rootOf (expression : String) : String :=
  String.ofList (Text.cutAt '.' expression.toList).1

/-- The part after the first point, if there is one: the fields. -/
def fieldsOf? (expression : String) : Option String :=
  (Text.cutAt '.' expression.toList).2.map String.ofList

structure Path where
  segments : List String
deriving DecidableEq

namespace Path

def isSeparator (c : Char) : Bool := c == '.' || c == '[' || c == ']'

def ofText (text : String) : Path := ⟨(Text.pieces isSeparator text.toList).map String.ofList⟩

/-- The segments with points between them. -/
def dotted (p : Path) : String :=
  String.ofList (['.'].intercalate (p.segments.map String.toList))

def root? (p : Path) : Option String := p.segments.head?

/-- `q` is the beginning of `p`. -/
def startsWith (p q : Path) : Bool := q.segments.isPrefixOf p.segments

instance : LT Path := ⟨fun p q => p.segments < q.segments⟩

instance (p q : Path) : Decidable (p < q) := inferInstanceAs (Decidable (p.segments < q.segments))

def cmp (p q : Path) : Ordering := if p < q then .lt else if p = q then .eq else .gt

/-- The edit distance of the dotted forms. -/
def distance (p q : Path) : Nat := Text.distance p.dotted.toList q.dotted.toList

def isSimilarTo (p q : Path) (limit : Nat) : Bool := p.distance q ≤ limit

protected theorem lt_trans {p q r : Path} (h : p < q) (h' : q < r) : p < r :=
  List.lt_trans (α := String) h h'

protected theorem lt_irrefl (p : Path) : ¬ p < p := List.lt_irrefl (α := String) p.segments

/-- Of two different paths one stands before the other. -/
protected theorem lt_of_not_lt {p q : Path} (h : ¬ p < q) (hne : p ≠ q) : q < p := by
  apply Classical.byContradiction
  intro h'
  have e : p.segments = q.segments :=
    List.le_antisymm (α := String) (List.not_lt.1 h') (List.not_lt.1 h)
  cases p; cases q; exact hne (congrArg Path.mk e)

end Path

end Stencil
