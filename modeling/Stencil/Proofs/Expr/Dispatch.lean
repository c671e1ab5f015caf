import Stencil.Proofs.Expr.Operands

/-!
# Which reader a text is for

The standard chain reads a text with an operator as such and one without a space or a tab as one
operand. A balanced text without operators is one operand at every level, so both ways of reading it
agree; the other ones have no variables, however they are read.
-/

namespace Stencil

/-- The symbol of some operator stands in the text, be it in quotes or brackets. -/
def HasSymbol (t : List Char) : Prop := ∃ op : Operator, op.chars <:+: t

/-- No space and no tab. -/
def OneWord (t : List Char) : Prop := ' ' ∉ t ∧ '\t' ∉ t

instance (t : List Char) : Decidable (OneWord t) := inferInstanceAs (Decidable (_ ∧ _))

theorem Text.occurs_iff {p t : List Char} : Text.occurs p t = true ↔ p <:+: t := by
  induction t with
  | nil => simp [Text.occurs]
  | cons c r ih => rw [Text.occurs, Bool.or_eq_true, List.isPrefixOf_iff_prefix, ih, List.infix_cons_iff]

theorem HasSymbol.mono {t u : List Char} (h : HasSymbol t) (ht : t <:+: u) : HasSymbol u := by
  obtain ⟨op, ho⟩ := h
  exact ⟨op, ho.trans ht⟩

/-! ## What readers are for -/

namespace Reader

variable {text : String}

theorem hasOperator_iff : hasOperator text = true ↔ HasSymbol text.toList := by
  have hall : ∀ op : Operator, op ∈ Operator.all := by
    intro op
    cases op <;> decide
  simp only [hasOperator, List.any_eq_true, Text.occurs_iff, HasSymbol]
  constructor
  · rintro ⟨op, -, h⟩
    exact ⟨op, h⟩
  · rintro ⟨op, h⟩
    exact ⟨op, hall op, h⟩

theorem simple_supports_iff :
    simple.supports text = true ↔ OneWord text.toList := by
  simp only [simple, Bool.not_eq_true', List.any_eq_false, Bool.or_eq_true, beq_iff_eq, not_or]
  constructor
  · intro h
    exact ⟨fun hc => (h _ hc).1 rfl, fun hc => (h _ hc).2 rfl⟩
  · rintro ⟨h₁, h₂⟩ c hc
    exact ⟨fun e => h₁ (e ▸ hc), fun e => h₂ (e ▸ hc)⟩

theorem binary_of_conditional (h : conditional.supports text = true) :
    binary.supports text = true := by
  have hall : ∀ s ∈ spacedOperators, ∃ op ∈ Operator.all, Text.occurs op.chars s.toList = true := by
    decide +kernel
  obtain ⟨s, hs, ho⟩ := List.any_eq_true.1 h
  obtain ⟨op, -, hop⟩ := hall s hs
  have hsym : HasSymbol s.toList := ⟨op, Text.occurs_iff.1 hop⟩
  exact hasOperator_iff.2 (hsym.mono (Text.occurs_iff.1 ho))

theorem chain_read_cons (r : Reader) (rs : List Reader) :
    (chain (r :: rs)).read text = if r.supports text then r.read text else (chain rs).read text := by
  by_cases h : r.supports text = true <;> simp [chain, h]

theorem chain_supports_cons (r : Reader) (rs : List Reader) :
    (chain (r :: rs)).supports text = (r.supports text || (chain rs).supports text) := rfl

/-- Conditions need no reader of their own. -/
theorem standard_read_eq : standard.read text = (chain [binary, simple]).read text := by
  rw [standard, chain_read_cons]
  by_cases h : conditional.supports text = true
  · rw [if_pos h, chain_read_cons, if_pos (binary_of_conditional h)]
    rfl
  · rw [if_neg h]

theorem standard_supports_eq : standard.supports text = (chain [binary, simple]).supports text := by
  rw [standard, chain_supports_cons]
  by_cases h : conditional.supports text = true
  · rw [h, chain_supports_cons, binary_of_conditional h]
    rfl
  · simp [h]

theorem standard_read (text : String) : standard.read text =
    if hasOperator text then Expr.ofText text
    else if simple.supports text then Expr.ofWord text else .raw text := by
  rw [standard_read_eq, chain_read_cons, chain_read_cons]
  rfl

end Reader

/-! ## Texts without operators -/

section
variable {ops : Level} {sign : Bool} {m : Marked}

theorem operatorAt_of_no_symbol (h : ¬ HasSymbol (m.map Prod.fst)) : operatorAt ops sign m = none := by
  rw [operatorAt_eq_none]
  intro op _ hs
  obtain ⟨m', rfl⟩ := symbolAt_eq_true hs
  apply absurd _ h
  refine ⟨op, [], m'.map Prod.fst, ?_⟩
  rw [List.map_append, map_fst_map]
  rfl

theorem solid_of_no_symbol (h : ¬ HasSymbol (m.map Prod.fst)) : Solid ops sign m := by
  induction m generalizing sign with
  | nil => rfl
  | cons p m ih =>
    apply Solid.cons (operatorAt_of_no_symbol h)
    apply ih
    intro hs
    exact h (hs.mono (List.suffix_cons _ _).isInfix)

end

theorem cut_of_no_symbol {t : List Char} (h : ¬ HasSymbol t) (ops : Level) :
    cut ops (marked t) = ⟨t, []⟩ := by
  have hs : ¬ HasSymbol ((marked t).map Prod.fst) := by rwa [map_fst_marked]
  rw [cut_of_none (operatorAt_of_no_symbol hs), solid_of_no_symbol hs, map_fst_marked]

namespace Expr

theorem climb_of_no_symbol {inner : List Char → Except Fault Expr} {t : List Char} (hb : Balanced t)
    (h : ¬ HasSymbol t) (ls : List Level) : climb inner ls t = ofOperand inner (Text.trim t) := by
  induction ls with
  | nil => rfl
  | cons ops ls ih =>
    have ht : ¬ HasSymbol (Text.trim t) := by
      obtain ⟨u, v, -, -, e⟩ := Text.exists_trim t
      intro hs
      exact h (hs.mono ⟨u, v, by rw [List.append_assoc, ← e]⟩)
    rw [climb_of_balanced hb, cut_of_no_symbol ht, Cut.read_lone, ← ih]
    exact climb_congr (Text.trim_trim t) ls

theorem ofWord_eq_ofText {text : String} (hb : Balanced text.toList) (h : ¬ HasSymbol text.toList) :
    ofWord text = ofText text := by
  have hc : ofNested maxNesting text.toList =
      ofOperand (ofNested (maxNesting - 1)) (Text.trim text.toList) :=
    climb_of_no_symbol hb h levels
  rw [ofWord, ofText, hc]

end Expr

/-! ## Texts that do not balance -/

theorem run_of_closing {s : Scan} {t u : List Char} (h : closing s t = some u) :
    s.run t = some .start := by
  induction t generalizing s u with
  | nil => cases h
  | cons c r ih =>
    rw [Scan.run_cons]
    unfold closing at h
    cases hs : s.step c with
    | none =>
      rw [hs] at h
      cases h
    | some s' =>
      simp only [hs] at h
      by_cases he : s' = .start
      · rw [if_pos he] at h
        cases r with
        | nil => rw [he]; rfl
        | cons d r => cases h
      · rw [if_neg he] at h
        obtain ⟨u', hu, -⟩ := Option.map_eq_some_iff.1 h
        exact ih hu

theorem balanced_of_enclosed {t u : List Char} (h : enclosed t = some u) : Balanced t := by
  cases t with
  | nil => cases h
  | cons c r =>
    by_cases hc : c = '('
    · subst hc
      have hr : Scan.run ⟨1, none⟩ r = some .start := run_of_closing h
      exact hr
    · rw [enclosed_eq_none hc] at h
      cases h

theorem balanced_of_isIdentifier {t : List Char} (h : isIdentifier t = true) : Balanced t := by
  apply balanced_of_flat
  intro c hc
  exact isFlat_of_nameChar (isNameChar_of_isIdentifier h c hc)

namespace Expr

theorem identifiers_of_ofToken {t : List Char} (hb : ¬ Balanced t) {e : Expr} (h : ofToken t = .ok e) :
    e.identifiers = [] := by
  rcases ofToken_cases h with ⟨l, rfl⟩ | ⟨hi, rfl⟩ | rfl
  · rfl
  · exact absurd (balanced_of_isIdentifier hi) hb
  · rfl

theorem identifiers_ofWord {text : String} (hb : ¬ Balanced text.toList) :
    (ofWord text).identifiers = [] := by
  unfold ofWord
  split
  · rfl
  · have ht : ¬ Balanced (Text.trim text.toList) := by rwa [balanced_trim]
    have hne : Text.trim text.toList ≠ [] := by
      intro e
      rw [e] at ht
      exact ht rfl
    rw [ofOperand_of_ne_nil hne]
    cases he : enclosed (Text.trim text.toList) with
    | some u => exact absurd (balanced_of_enclosed he) ht
    | none =>
      cases hr : ofToken (Text.trim text.toList) with
      | error f => simp only [orRaw, identifiers]
      | ok e => exact identifiers_of_ofToken ht hr

theorem ofText_of_unbalanced {text : String} (hb : ¬ Balanced text.toList) : ofText text = .raw text := by
  unfold ofText
  rw [ofNested_of_unbalanced hb]
  split <;> rfl

end Expr

/-! ## Dispatch -/

namespace Reader

theorem standard_read_of_supports {text : String}
    (h : hasOperator text = true ∨ simple.supports text = true) :
    (standard.read text).identifiers = (binary.read text).identifiers ∧
      (Balanced text.toList → standard.read text = binary.read text) := by
  change _ = (Expr.ofText text).identifiers ∧ (_ → _ = Expr.ofText text)
  rw [standard_read]
  by_cases ho : hasOperator text = true
  · rw [if_pos ho]
    exact ⟨rfl, fun _ => rfl⟩
  · have hs : ¬ HasSymbol text.toList := by rwa [← hasOperator_iff]
    rw [if_neg ho, if_pos (h.resolve_left ho)]
    by_cases hb : Balanced text.toList
    · rw [Expr.ofWord_eq_ofText hb hs]
      exact ⟨rfl, fun _ => rfl⟩
    · rw [Expr.ofText_of_unbalanced hb, Expr.identifiers_ofWord hb]
      exact ⟨rfl, fun hb' => absurd hb' hb⟩

/-- The standard chain finds the variables that reading with all operators finds. Only a text of
several words without an operator is left as it is. -/
theorem dispatch_agrees (text : String) :
    (HasSymbol text.toList ∨ OneWord text.toList →
      (standard.read text).identifiers = (binary.read text).identifiers ∧
      (Nested text.toList → standard.read text = binary.read text)) ∧
    (¬ (HasSymbol text.toList ∨ OneWord text.toList) → standard.read text = .raw text) ∧
    standard.read text = (chain [binary, simple]).read text ∧
    standard.supports text = (chain [binary, simple]).supports text := by
  rw [← hasOperator_iff, ← simple_supports_iff, ← balanced_iff_nested]
  refine ⟨standard_read_of_supports, ?_, standard_read_eq, standard_supports_eq⟩
  intro h
  obtain ⟨ho, hs⟩ := not_or.1 h
  rw [standard_read, if_neg ho, if_neg hs]

/-- One operand in brackets, one with a bracket too much, and two words. -/
theorem dispatch_agrees_word :
    standard.read "(user.name)" = .identifier "user.name" ∧
    (standard.read "user)").identifiers = [] ∧
    standard.read "user name" = .raw "user name" := by
  refine ⟨?_, ?_, ?_⟩
  · have h := (dispatch_agrees "(user.name)").1 (.inr (by decide +kernel))
    rw [h.2 (balanced_iff_nested.1 (by decide +kernel))]
    decide +kernel
  · rw [((dispatch_agrees "user)").1 (.inr (by decide +kernel))).1]
    decide +kernel
  · apply (dispatch_agrees "user name").2.1
    rw [← hasOperator_iff]
    decide +kernel

end Reader

end Stencil
