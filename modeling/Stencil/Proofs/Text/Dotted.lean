import Stencil.Proofs.Text.Trimming
import Stencil.Path.Basic

/-!
# Dotted expressions

An expression `x.p`, where `x` has neither points nor white space and `p` is trimmed, is trimmed
itself; its variable is `x` and its fields are `p`.
-/

namespace Stencil

namespace Text

theorem cutAt_append {c : Char} {s : List Char} (h : c ∉ s) (t : List Char) :
    cutAt c (s ++ c :: t) = (s, some t) := by
  induction s with
  | nil => rw [List.nil_append, cutAt, if_pos rfl]
  | cons d s ih =>
    have hd : d ≠ c := fun e => h (e ▸ List.mem_cons_self)
    rw [List.cons_append, cutAt, if_neg hd, ih fun hc => h (List.mem_cons_of_mem _ hc)]

theorem cutAt_of_not_mem {c : Char} {s : List Char} (h : c ∉ s) : cutAt c s = (s, none) := by
  induction s with
  | nil => rfl
  | cons d s ih =>
    have hd : d ≠ c := fun e => h (e ▸ List.mem_cons_self)
    rw [cutAt, if_neg hd, ih fun hc => h (List.mem_cons_of_mem _ hc)]

end Text

/-- A name without points and white space. -/
def IsVariable (x : String) : Prop := ∀ c ∈ x.toList, c ≠ '.' ∧ Text.isBlank c = false

instance (x : String) : Decidable (IsVariable x) := List.decidableBAll _ x.toList

/-- A path that is not blank and has no white space around it. -/
def IsTrimmedPath (p : String) : Prop := Text.allBlank p = false ∧ Text.trimmed p = p

instance (p : String) : Decidable (IsTrimmedPath p) :=
  inferInstanceAs (Decidable (Text.allBlank p = false ∧ Text.trimmed p = p))

namespace IsVariable

variable {x : String}

theorem no_point (hx : IsVariable x) : '.' ∉ x.toList := fun h => (hx _ h).1 rfl

theorem trimmed (hx : IsVariable x) : Text.trimmed x = x := by
  rw [Text.trimmed, Text.trim_of_no_blank fun c hc => (hx c hc).2, String.ofList_toList]

theorem rootOf (hx : IsVariable x) : rootOf x = x := by
  rw [Stencil.rootOf, Text.cutAt_of_not_mem hx.no_point, String.ofList_toList]

variable {p : String}

theorem toList_dotted (x p : String) : (x ++ "." ++ p).toList = x.toList ++ '.' :: p.toList := by
  rw [String.toList_append, String.toList_append, List.append_assoc]
  rfl

theorem rootOf_dotted (hx : IsVariable x) (p : String) : Stencil.rootOf (x ++ "." ++ p) = x := by
  rw [Stencil.rootOf, toList_dotted, Text.cutAt_append hx.no_point, String.ofList_toList]

theorem fieldsOf?_dotted (hx : IsVariable x) (p : String) : fieldsOf? (x ++ "." ++ p) = some p := by
  rw [fieldsOf?, toList_dotted, Text.cutAt_append hx.no_point, Option.map_some, String.ofList_toList]

theorem trimmed_dotted (hx : IsVariable x) (hp : IsTrimmedPath p) :
    Text.trimmed (x ++ "." ++ p) = x ++ "." ++ p := by
  have ht : Text.Tight p.toList := by
    refine Text.tight_of_trim_eq ?_ fun h => ?_
    · have h := congrArg String.toList hp.2
      rwa [Text.trimmed, String.toList_ofList] at h
    · rw [IsTrimmedPath, Text.allBlank, h] at hp
      cases hp.1
  have hs : ∀ c ∈ x.toList ++ ['.'], Text.isBlank c = false := by
    intro c hc
    rcases List.mem_append.1 hc with hc | hc
    · exact (hx c hc).2
    · rw [List.mem_singleton.1 hc]
      rfl
  have h := (ht.prepend hs).trim
  rw [List.append_assoc, List.singleton_append, ← toList_dotted] at h
  rw [Text.trimmed, h, String.ofList_toList]

end IsVariable

end Stencil
