import Stencil.Text.Blank
import Stencil.Path.Known

/-!
# Interpolations

A template mentions variables between `${` and the next closing brace. An interpolation may hold
anything but that brace, an opening brace too, but not nothing.
-/

namespace Stencil.Template

/-- The text before the first closing brace and the text after it, if something stands before. -/
def body? (s : List Char) : Option (List Char × List Char) :=
  match Text.cutAt '\x7d' s with
  | (c :: b, some rest) => some (c :: b, rest)
  | _ => none

theorem length_of_body? {s b r : List Char} (h : body? s = some (b, r)) : r.length < s.length := by
  unfold body? at h
  split at h
  · rename_i c b' rest hc
    cases h
    have := Text.cutAt_some (c := '\x7d') (s := s) (t := r) (by rw [hc])
    rw [this]; simp; omega
  · cases h

/-- What stands in the interpolations, from left to right. -/
def interpolations : List Char → List (List Char)
  | [] => []
  | [_] => []
  | c :: d :: s =>
    if c = '$' ∧ d = '\x7b' then
      match hb : body? s with
      | some (b, rest) =>
        have := length_of_body? hb
        b :: interpolations rest
      | none => interpolations (d :: s)
    else interpolations (d :: s)
termination_by s => s.length
decreasing_by
  · simp only [List.length_cons]; omega
  · simp
  · simp

/-- The variables a template mentions, without the blank ones. -/
def mentions (template : String) : List String :=
  ((interpolations template.toList).map Text.trim).filter (!·.isEmpty) |>.map String.ofList

/-- The mentioned variables that are not known. -/
def unknown (known : KnownPaths) (template : String) : List String :=
  (mentions template).filter (!known.knows ·)

def isValid (known : KnownPaths) (template : String) : Bool := (unknown known template).isEmpty

/-- The dotted forms of the best suggestions. -/
def suggestions (known : KnownPaths) (limit : Nat) (text : String) : List String :=
  ((known.suggestions text).take limit).map Path.dotted

/-- How many suggestions are made when nothing else is wanted. -/
def defaultLimit : Nat := 5

end Stencil.Template
