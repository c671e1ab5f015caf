import Stencil.Text.CaseMap

/-!
# Properties

An accessor of a record stands for a property: `getName` for `name`, and `isActive` for `active`
when it tells a truth value. The first letter becomes small unless the first two are capitals.
-/

namespace Stencil.Naming

def decapitalize : List Char → List Char
  | [] => []
  | c :: r =>
    if Text.isUppercase c && r.head?.any Text.isUppercase then c :: r else Text.lower c ++ r

/-- The accessor's name without its verb. -/
def stem? (isBool : Bool) : List Char → Option (List Char)
  | 'g' :: 'e' :: 't' :: r => some r
  | 'i' :: 's' :: r => if isBool then some r else none
  | _ => none

/-- The property that an accessor stands for; a verb alone stands for none. -/
def property? (accessor : String) (isBool : Bool) : Option String :=
  match stem? isBool accessor.toList with
  | none | some [] => none
  | some stem => some (String.ofList (decapitalize stem))

end Stencil.Naming
