import Stencil.Text.Blank

/-!
# Element types

The display name of a collection type shows the types of its members: `List<Order>`,
`Map<String,User>`. The element type is the last of them, and `object` when none is shown.
-/

namespace Stencil

/-- The type of which nothing is known. -/
def objectType : String := "object"

namespace Naming

/-- The text after the first comma outside angle brackets. A closing bracket that closes nothing
is passed over. -/
def afterComma : Nat → List Char → Option (List Char)
  | _, [] => none
  | depth, c :: r =>
    if c = '<' then afterComma (depth + 1) r
    else if c = '>' then afterComma (depth - 1) r
    else if c = ',' ∧ depth = 0 then some r
    else afterComma depth r

/-- The text between the first opening and the last closing angle bracket, if it is not empty and
a name stands before it. -/
def arguments? (s : List Char) : Option (List Char) :=
  match s.span (· != '<') with
  | (_ :: _, _ :: r) =>
    match (r.reverse.dropWhile (· != '>')).tail.reverse with
    | [] => none
    | args => some args
  | _ => none

/-- The element type of a collection type. -/
def elementType (display : String) : String :=
  match arguments? display.toList with
  | none => objectType
  | some args => String.ofList (Text.trim ((afterComma 0 args).getD args))

end Naming

end Stencil
