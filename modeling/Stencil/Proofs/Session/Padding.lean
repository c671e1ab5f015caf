import Stencil.Proofs.Expr.Dispatch
import Stencil.Session.Basic

/-!
# White space around expressions

Readers trim what they read, but the standard chain chooses the reader by the text as it is. White
space around a text with operators makes no difference. Around one word a space or a tab does: the
text has two words then, is left as it is, and nothing is recorded.
-/

namespace Stencil

/-! ## Readers -/

namespace Expr

theorem identifiers_orRaw (text : String) (r : Except Fault Expr) :
    (orRaw text r).identifiers = match r with | .ok e => e.identifiers | .error _ => [] := by
  cases r <;> rfl

variable {a b : String} (h : Text.trim a.toList = Text.trim b.toList)
include h

theorem allBlank_congr : Text.allBlank a = Text.allBlank b := by
  unfold Text.allBlank
  rw [Bool.eq_iff_iff, ← Text.trim_eq_nil_iff, ← Text.trim_eq_nil_iff, h]

theorem identifiers_ofText_congr : (ofText a).identifiers = (ofText b).identifiers := by
  unfold ofText
  rw [allBlank_congr h, ofNested_eq, climb_congr h]
  split
  · rfl
  · rw [identifiers_orRaw, identifiers_orRaw]

theorem identifiers_ofWord_congr : (ofWord a).identifiers = (ofWord b).identifiers := by
  unfold ofWord
  rw [allBlank_congr h, h]
  split
  · rfl
  · rw [identifiers_orRaw, identifiers_orRaw]

end Expr

section
variable {u v : List Char} (hu : u.all Text.isBlank = true) (hv : v.all Text.isBlank = true)
  (t : List Char)
include hu hv

theorem trim_padded : Text.trim (u ++ (t ++ v)) = Text.trim t := by
  rw [Text.trim_blank_append hu, Text.trim_append_blank hv]

theorem hasSymbol_padded : HasSymbol (u ++ (t ++ v)) ↔ HasSymbol t := by
  unfold HasSymbol
  apply exists_congr
  intro op
  have hop : ∀ c ∈ op.chars, Text.isBlank c = false := fun c => not_blank_of_mem_chars
  rw [Text.infix_blank_append hop op.chars_ne_nil hu, Text.infix_append_blank hop op.chars_ne_nil hv]

omit hu hv in
theorem oneWord_padded : OneWord (u ++ (t ++ v)) ↔ OneWord (u ++ v) ∧ OneWord t := by
  simp only [OneWord, List.mem_append, not_or]
  tauto

end

theorem toList_padded (u t v : String) : (u ++ t ++ v).toList = u.toList ++ (t.toList ++ v.toList) := by
  simp

namespace Reader

variable {u v : String} (hu : Text.allBlank u = true) (hv : Text.allBlank v = true) (t : String)
include hu hv

/-- White space that the standard chain reads over. -/
theorem identifiers_padded (h : HasSymbol t.toList ∨ OneWord (u.toList ++ v.toList)) :
    (standard.read (u ++ t ++ v)).identifiers = (standard.read t).identifiers := by
  have htrim : Text.trim (u ++ t ++ v).toList = Text.trim t.toList := by
    rw [toList_padded, trim_padded hu hv]
  have hsym : hasOperator (u ++ t ++ v) = hasOperator t := by
    rw [Bool.eq_iff_iff, hasOperator_iff, hasOperator_iff, toList_padded, hasSymbol_padded hu hv]
  rw [standard_read, standard_read, hsym]
  by_cases ho : hasOperator t = true
  · rw [if_pos ho, if_pos ho, Expr.identifiers_ofText_congr htrim]
  · have hw := h.resolve_left (by rwa [← hasOperator_iff])
    have hone : simple.supports (u ++ t ++ v) = simple.supports t := by
      rw [Bool.eq_iff_iff, simple_supports_iff, simple_supports_iff, toList_padded, oneWord_padded]
      exact and_iff_right hw
    rw [if_neg ho, if_neg ho, hone]
    split
    · exact Expr.identifiers_ofWord_congr htrim
    · rfl

/-- White space with a space or a tab around a text without operators. -/
theorem identifiers_hidden (h : ¬ (HasSymbol t.toList ∨ OneWord (u.toList ++ v.toList))) :
    (standard.read (u ++ t ++ v)).identifiers = [] := by
  obtain ⟨hs, hw⟩ := not_or.1 h
  have ho : ¬ hasOperator (u ++ t ++ v) = true := by
    rwa [hasOperator_iff, toList_padded, hasSymbol_padded hu hv]
  have hone : ¬ simple.supports (u ++ t ++ v) = true := by
    rw [simple_supports_iff, toList_padded, oneWord_padded]
    exact fun h => hw h.1
  rw [standard_read, if_neg ho, if_neg hone]
  rfl

end Reader

/-! ## Recording -/

namespace Session

theorem references_assign (s : Session) (name text : String) :
    (s.assign name text).references = (s.recordExpression text).references := rfl

theorem recordExpression_congr {s : Session} {a b : String} (h : s.mentions a = s.mentions b) :
    s.recordExpression a = s.recordExpression b := by
  rw [recordExpression, recordExpression, h]

/-- What is recorded of a text with white space around it: the same as of the text alone, unless the
text has no operator and the white space has a space or a tab. Then it is nothing. -/
theorem recorded_with_padding {s : Session} (hr : s.reader = .standard) {u v : String}
    (hu : Text.allBlank u = true) (hv : Text.allBlank v = true) (t name : String) :
    (HasSymbol t.toList ∨ OneWord (u.toList ++ v.toList) →
      (s.reader.read (u ++ t ++ v)).identifiers = (s.reader.read t).identifiers ∧
      s.recordExpression (u ++ t ++ v) = s.recordExpression t ∧
      (s.assign name (u ++ t ++ v)).references = (s.assign name t).references) ∧
    (¬ (HasSymbol t.toList ∨ OneWord (u.toList ++ v.toList)) →
      (s.reader.read (u ++ t ++ v)).identifiers = [] ∧
      s.recordExpression (u ++ t ++ v) = s ∧
      (s.assign name (u ++ t ++ v)).references = s.references) := by
  constructor
  · intro h
    have hm : s.mentions (u ++ t ++ v) = s.mentions t := by
      rw [mentions, mentions, hr]
      exact Reader.identifiers_padded hu hv t h
    refine ⟨hm, recordExpression_congr hm, ?_⟩
    rw [references_assign, references_assign, recordExpression_congr hm]
  · intro h
    have hm : s.mentions (u ++ t ++ v) = [] := by
      rw [mentions, hr]
      exact Reader.identifiers_hidden hu hv t h
    have hs : s.recordExpression (u ++ t ++ v) = s := by
      rw [recordExpression, hm]
      rfl
    refine ⟨hm, hs, ?_⟩
    rw [references_assign, hs]

/-- One word is recorded alone and between line feeds, and is not recorded between spaces. -/
theorem recorded_with_padding_word :
    let s := (start ⟨[]⟩ (Globals.source .empty) .standard (.build .standard 0)).1
    (s.recordExpression "user").references.map (·.expression) = ["user"] ∧
    s.recordExpression "\nuser\n" = s.recordExpression "user" ∧
    (s.recordExpression " user ").references = [] := by
  intro s
  have hsym : ¬ HasSymbol "user".toList := by
    rw [← Reader.hasOperator_iff]
    decide +kernel
  refine ⟨by decide +kernel, ?_, ?_⟩
  · exact ((recorded_with_padding (s := s) (u := "\n") (v := "\n") rfl (by decide +kernel)
      (by decide +kernel) "user" "").1 (.inr (by decide +kernel))).2.1
  · have h := (recorded_with_padding (s := s) (u := " ") (v := " ") rfl (by decide +kernel)
      (by decide +kernel) "user" "").2 ?_
    · have := h.2.1
      change (s.recordExpression (" " ++ "user" ++ " ")).references = []
      rw [this]
      rfl
    · rintro (h | h)
      · exact hsym h
      · exact absurd h (by decide +kernel)

end Session

end Stencil
