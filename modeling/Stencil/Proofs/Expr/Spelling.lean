import Stencil.Proofs.Text.Trimming
import Stencil.Proofs.Expr.Cutting
import Stencil.Expr.Operand

/-!
# Spellings of expressions

A spelling of a tree puts each operator between the spellings of its operands. Operators of one
level associate to the left: a left operand whose operator binds more loosely stands in brackets,
and so does a right operand whose operator does not bind more tightly. Further brackets, and gaps
between the tokens, may stand anywhere.
-/

namespace Stencil

/-- How tightly an operator binds: the place of its level. -/
def Operator.rank : Operator → Nat
  | or => 0 | and => 1 | ge | le => 2 | gt | lt => 3 | eq | ne => 4 | add | sub => 5
  | mul | div | rem => 6

/-- A run of spaces, tabs, line feeds, carriage returns and form feeds. -/
def Gap (u : List Char) : Prop := ∀ c ∈ u, isPlainBlank c

def IsDigits (ds : List Char) : Prop := ds ≠ [] ∧ ∀ c ∈ ds, c.isDigit

inductive SpellsInt : Int → List Char → Prop
  | plain {ds : List Char} : IsDigits ds → SpellsInt (Numeral.ofDigits ds) ds
  | plus {ds : List Char} : IsDigits ds → SpellsInt (Numeral.ofDigits ds) ('+' :: ds)
  | minus {ds : List Char} : IsDigits ds → SpellsInt (-(Numeral.ofDigits ds : Int)) ('-' :: ds)

/-- The word in letters of any case. -/
def IsWord (w : String) (t : List Char) : Prop := t.map Char.toLower = w.toList

instance (w : String) (t : List Char) : Decidable (IsWord w t) :=
  inferInstanceAs (Decidable (t.map Char.toLower = w.toList))

/-- The spellings of a leaf. Of the integers the wide ones are those that do not fit 32 bits. -/
inductive SpellsLeaf : Expr → List Char → Prop
  | identifier {name : String} : isIdentifier name.toList → ¬ IsWord "true" name.toList →
      ¬ IsWord "false" name.toList → SpellsLeaf (.identifier name) name.toList
  | int {v : Int32} {t : List Char} : SpellsInt v.toInt t → SpellsLeaf (.literal (.int v)) t
  | long {v : Int64} {t : List Char} : v.toInt < -0x80000000 ∨ 0x80000000 ≤ v.toInt →
      SpellsInt v.toInt t → SpellsLeaf (.literal (.long v)) t
  | yes {t : List Char} : IsWord "true" t → SpellsLeaf (.literal (.bool true)) t
  | no {t : List Char} : IsWord "false" t → SpellsLeaf (.literal (.bool false)) t
  | str {s : String} {q : Char} : Scan.isQuote q → q ∉ s.toList →
      SpellsLeaf (.literal (.str s)) (inQuotes q s.toList)

/-- `Spells n k e t`: the text `t` spells the tree `e`, with brackets nested at most `n` deep, and
outside brackets with operators of rank `k` or more only. -/
inductive Spells : Nat → Nat → Expr → List Char → Prop
  | leaf {n k : Nat} {e : Expr} {t : List Char} : SpellsLeaf e t → Spells n k e t
  | bracket {n k : Nat} {e : Expr} {t u v : List Char} : Gap u → Gap v → Spells n 0 e t →
      Spells (n + 1) k e (bracketed (u ++ (t ++ v)))
  | binary {n k : Nat} {op : Operator} {l r : Expr} {s t u v : List Char} : k ≤ op.rank →
      Spells n op.rank l s → Gap u → Gap v → Spells n (op.rank + 1) r t →
      Spells n k (.binary l op r) (s ++ (u ++ (op.chars ++ (v ++ t))))

/-! ## Characters -/

theorem isBlank_of_plain {c : Char} (h : isPlainBlank c) : Text.isBlank c = true := by
  simp only [isPlainBlank, Bool.or_eq_true, beq_iff_eq] at h
  obtain (((rfl | rfl) | rfl) | rfl) | rfl := h <;> rfl

theorem isPlainBlank_of_not_blank {c : Char} (h : Text.isBlank c = false) : isPlainBlank c = false := by
  cases hp : isPlainBlank c with
  | false => rfl
  | true =>
    rw [isBlank_of_plain hp] at h
    cases h

theorem isFlat_of_plain {c : Char} (h : isPlainBlank c) : isFlat c = true := by
  simp only [isPlainBlank, Bool.or_eq_true, beq_iff_eq] at h
  obtain (((rfl | rfl) | rfl) | rfl) | rfl := h <;> rfl

theorem beforeSign_of_plain {c : Char} (h : isPlainBlank c) : beforeSign c = false := by
  simp only [isPlainBlank, Bool.or_eq_true, beq_iff_eq] at h
  obtain (((rfl | rfl) | rfl) | rfl) | rfl := h <;> rfl

theorem Gap.blank {u : List Char} (h : Gap u) : u.all Text.isBlank = true :=
  List.all_eq_true.2 fun c hc => isBlank_of_plain (h c hc)

/-- The characters of names and numbers. -/
def isNameChar (c : Char) : Bool := c.isAlphanum || c == '_' || c == '.'

theorem ne_of_nameChar {c d : Char} (hc : isNameChar c) (hd : isNameChar d = false) : c ≠ d := by
  rintro rfl
  rw [hd] at hc; cases hc

theorem beforeSign_of_nameChar {c : Char} (h : isNameChar c) : beforeSign c = false := by
  have hall : "+-*/%<>=!&|(".toList.all (fun d => !isNameChar d) = true := by decide
  cases hc : beforeSign c with
  | false => rfl
  | true =>
    have := List.all_eq_true.1 hall c (List.contains_iff_mem.1 hc)
    rw [h] at this; cases this

theorem isFlat_of_nameChar {c : Char} (h : isNameChar c) : isFlat c = true := by
  have h₁ : c ≠ '\'' := ne_of_nameChar h rfl
  have h₂ : c ≠ '"' := ne_of_nameChar h rfl
  have h₃ : c ≠ '(' := ne_of_nameChar h rfl
  have h₄ : c ≠ ')' := ne_of_nameChar h rfl
  simp [isFlat, Scan.isQuote, h₁, h₂, h₃, h₄]

theorem isUpper_iff {c : Char} : c.isUpper = true ↔ 65 ≤ c.toNat ∧ c.toNat ≤ 90 := by
  show decide (65 ≤ c.val ∧ c.val ≤ 90) = true ↔ _
  rw [decide_eq_true_eq, UInt32.le_iff_toNat_le, UInt32.le_iff_toNat_le]
  exact Iff.rfl

theorem isLower_iff {c : Char} : c.isLower = true ↔ 97 ≤ c.toNat ∧ c.toNat ≤ 122 := by
  show (decide (97 ≤ c.val) && decide (c.val ≤ 122)) = true ↔ _
  rw [Bool.and_eq_true, decide_eq_true_eq, decide_eq_true_eq, UInt32.le_iff_toNat_le,
    UInt32.le_iff_toNat_le]
  exact Iff.rfl

theorem isDigit_iff {c : Char} : c.isDigit = true ↔ 48 ≤ c.toNat ∧ c.toNat ≤ 57 := by
  show (decide (48 ≤ c.val) && decide (c.val ≤ 57)) = true ↔ _
  rw [Bool.and_eq_true, decide_eq_true_eq, decide_eq_true_eq, UInt32.le_iff_toNat_le,
    UInt32.le_iff_toNat_le]
  exact Iff.rfl

theorem isAlpha_iff {c : Char} : c.isAlpha = true ↔ c.isUpper = true ∨ c.isLower = true := by
  show (c.isUpper || c.isLower) = true ↔ _
  rw [Bool.or_eq_true]

theorem isBlank_of_nameChar {c : Char} (h : isNameChar c) : Text.isBlank c = false := by
  have hn : (48 ≤ c.toNat ∧ c.toNat ≤ 57) ∨ (65 ≤ c.toNat ∧ c.toNat ≤ 90) ∨
      (97 ≤ c.toNat ∧ c.toNat ≤ 122) ∨ c.toNat = 95 ∨ c.toNat = 46 := by
    simp only [isNameChar, Char.isAlphanum, Bool.or_eq_true, beq_iff_eq, isAlpha_iff, isUpper_iff,
      isLower_iff, isDigit_iff] at h
    rcases h with (((h | h) | h) | rfl) | rfl
    · exact .inr (.inl h)
    · exact .inr (.inr (.inl h))
    · exact .inl h
    · exact .inr (.inr (.inr (.inl rfl)))
    · exact .inr (.inr (.inr (.inr rfl)))
  simp only [Text.isBlank, Bool.or_eq_false_iff, Bool.and_eq_false_iff, decide_eq_false_iff_not,
    beq_eq_false_iff_ne]
  omega

theorem isNameChar_of_digit {c : Char} (h : c.isDigit) : isNameChar c = true := by
  simp [isNameChar, Char.isAlphanum, h]

theorem isNameChar_of_toLower {c : Char} (h : isNameChar c.toLower) : isNameChar c = true := by
  unfold Char.toLower at h
  split at h
  · rename_i hu
    have hc : c.isAlpha = true := isAlpha_iff.2 (.inl (isUpper_iff.2 hu))
    simp only [isNameChar, Char.isAlphanum, hc, Bool.true_or]
  · exact h

/-! ## The ends of an operand -/

def opensOperand (c : Char) : Bool := !Text.isBlank c && !("*/%<>=!&|".toList.contains c)

/-- No other symbol starts like an operand. -/
theorem isSign_of_opensOperand {op : Operator} {c : Char} {r : List Char} (hc : op.chars = c :: r)
    (h : opensOperand c) : op.isSign = true := by
  have hall : ∀ op : Operator, op.isSign = true ∨ op.chars.head?.all (fun c => !opensOperand c) = true := by
    intro op
    cases op <;> decide
  rcases hall op with hs | hn
  · exact hs
  · rw [hc, List.head?_cons, Option.all_some, h] at hn
    cases hn

/-- No symbol starts at the last character of the text. -/
theorem seam_marked_concat (r : List Char) {c : Char} (h : beforeSign c = false) :
    Seam (marked (r ++ [c])) := by
  intro p hp
  have hl := congrArg List.getLast? (map_fst_marked (r ++ [c]))
  rw [List.getLast?_map, hp, List.getLast?_concat] at hl
  cases hl
  exact h

/-- A balanced text that starts like an operand and does not end with a part of a symbol. -/
structure IsOperand (t : List Char) : Prop where
  balanced : Balanced t
  head : ∃ c r, t = c :: r ∧ opensOperand c = true
  last : ∃ r c, t = r ++ [c] ∧ Text.isBlank c = false ∧ beforeSign c = false

namespace IsOperand

variable {t : List Char}

theorem tight (h : IsOperand t) : Text.Tight t := by
  obtain ⟨c, r, hc, ho⟩ := h.head
  obtain ⟨s, d, hd, hb, -⟩ := h.last
  simp only [opensOperand, Bool.and_eq_true, Bool.not_eq_true'] at ho
  exact ⟨⟨c, r, hc, ho.1⟩, ⟨s, d, hd, hb⟩⟩

theorem seam (h : IsOperand t) : Seam (marked t) := by
  obtain ⟨r, c, rfl, -, hs⟩ := h.last
  exact seam_marked_concat r hs

theorem signs_marked (h : IsOperand t) (sign : Bool) : signs sign (marked t) = false := by
  obtain ⟨r, c, hc, hb, hs⟩ := h.last
  have hp := isPlainBlank_of_not_blank hb
  have : ∀ m : Marked, signs sign m = (m.map Prod.fst).foldl signAfter sign := fun m => by
    rw [signs, List.foldl_map]
  rw [this, map_fst_marked, hc, List.foldl_append, List.foldl_cons, List.foldl_nil,
    signAfter_of_not_blank hp, hs]

theorem operatorAt_marked (h : IsOperand t) (ops : Level) (m : Marked) :
    operatorAt ops true (marked t ++ m) = none := by
  obtain ⟨c, r, rfl, ho⟩ := h.head
  refine operatorAt_eq_none.2 fun op _ hs => ⟨?_, rfl⟩
  obtain ⟨-, s, hs⟩ := symbolAt_cons hs
  exact isSign_of_opensOperand hs ho

end IsOperand

/-! ## Leaves and brackets -/

theorem SpellsInt.form {z : Int} {t : List Char} (h : SpellsInt z t) :
    ∃ ds, IsDigits ds ∧ (t = ds ∨ t = '+' :: ds ∨ t = '-' :: ds) := by
  cases h with
  | plain h => exact ⟨t, h, .inl rfl⟩
  | plus h => exact ⟨_, h, .inr (.inl rfl)⟩
  | minus h => exact ⟨_, h, .inr (.inr rfl)⟩

theorem isNameChar_of_isIdentifier {t : List Char} (h : isIdentifier t) : ∀ c ∈ t, isNameChar c := by
  cases t with
  | nil => intro c hc; cases hc
  | cons d r =>
    simp only [isIdentifier, Bool.and_eq_true, Bool.or_eq_true, beq_iff_eq, List.all_eq_true] at h
    intro c hc
    rcases List.mem_cons.1 hc with rfl | hc
    · rcases h.1 with ha | rfl
      · simp [isNameChar, Char.isAlphanum, ha]
      · rfl
    · have := h.2 c hc
      simpa [isNameChar] using this

theorem isNameChar_of_isWord {w : String} {t : List Char} (hw : w.toList.all isNameChar)
    (h : IsWord w t) : ∀ c ∈ t, isNameChar c := by
  intro c hc
  refine isNameChar_of_toLower (List.all_eq_true.1 hw _ ?_)
  rw [← h]
  exact List.mem_map_of_mem hc

/-- A leaf is a name or a number, a number with a sign, or a quoted text. -/
theorem SpellsLeaf.form {e : Expr} {t : List Char} (h : SpellsLeaf e t) :
    (t ≠ [] ∧ ∀ c ∈ t, isNameChar c) ∨
      (∃ c ds, (c = '+' ∨ c = '-') ∧ IsDigits ds ∧ t = c :: ds) ∨
      ∃ q s, Scan.isQuote q ∧ q ∉ s ∧ t = inQuotes q s := by
  have hint : ∀ z, SpellsInt z t → (t ≠ [] ∧ ∀ c ∈ t, isNameChar c) ∨
      ∃ c ds, (c = '+' ∨ c = '-') ∧ IsDigits ds ∧ t = c :: ds := by
    intro z hz
    obtain ⟨ds, hd, rfl | rfl | rfl⟩ := hz.form
    · exact .inl ⟨hd.1, fun c hc => isNameChar_of_digit (hd.2 c hc)⟩
    · exact .inr ⟨_, ds, .inl rfl, hd, rfl⟩
    · exact .inr ⟨_, ds, .inr rfl, hd, rfl⟩
  have hword : ∀ w : String, w.toList ≠ [] → w.toList.all isNameChar → IsWord w t →
      t ≠ [] ∧ ∀ c ∈ t, isNameChar c := by
    intro w hne hw ht
    refine ⟨fun e => hne ?_, isNameChar_of_isWord hw ht⟩
    rw [← ht, e]; rfl
  cases h with
  | identifier hi =>
    refine .inl ⟨fun e => ?_, isNameChar_of_isIdentifier hi⟩
    rw [e] at hi; cases hi
  | int hz => exact (hint _ hz).imp_right .inl
  | long _ hz => exact (hint _ hz).imp_right .inl
  | yes hw => exact .inl (hword _ (by decide) (by decide) hw)
  | no hw => exact .inl (hword _ (by decide) (by decide) hw)
  | str hq hs => exact .inr (.inr ⟨_, _, hq, hs, rfl⟩)

theorem opensOperand_of_nameChar {c : Char} (h : isNameChar c) : opensOperand c = true := by
  have hall : "*/%<>=!&|".toList.all (fun d => !isNameChar d) = true := by decide
  cases hc : "*/%<>=!&|".toList.contains c with
  | false => rw [opensOperand, isBlank_of_nameChar h, hc]; rfl
  | true =>
    have := List.all_eq_true.1 hall c (List.contains_iff_mem.1 hc)
    rw [h] at this; cases this

theorem isFlat_of_sign {c : Char} (h : c = '+' ∨ c = '-') : isFlat c = true := by
  rcases h with rfl | rfl <;> rfl

theorem exists_concat {t : List Char} (h : t ≠ []) : ∃ r c, t = r ++ [c] :=
  ⟨_, _, (List.dropLast_concat_getLast h).symm⟩

theorem isOperand_of_nameChars {t : List Char} (hne : t ≠ []) (h : ∀ c ∈ t, isNameChar c) :
    IsOperand t where
  balanced := balanced_of_flat fun c hc => isFlat_of_nameChar (h c hc)
  head := by
    obtain ⟨c, r, rfl⟩ := List.exists_cons_of_ne_nil hne
    exact ⟨c, r, rfl, opensOperand_of_nameChar (h c List.mem_cons_self)⟩
  last := by
    obtain ⟨r, c, rfl⟩ := exists_concat hne
    have hc := h c (by simp)
    exact ⟨r, c, rfl, isBlank_of_nameChar hc, beforeSign_of_nameChar hc⟩

theorem isFlat_of_signed {c : Char} {r : List Char} (hc : c = '+' ∨ c = '-') (h : ∀ d ∈ r, isNameChar d) :
    ∀ d ∈ c :: r, isFlat d := by
  intro d hd
  rcases List.mem_cons.1 hd with rfl | hd
  · exact isFlat_of_sign hc
  · exact isFlat_of_nameChar (h d hd)

theorem isOperand_of_signed {c : Char} {r : List Char} (hc : c = '+' ∨ c = '-') (hne : r ≠ [])
    (h : ∀ d ∈ r, isNameChar d) : IsOperand (c :: r) where
  balanced := balanced_of_flat (isFlat_of_signed hc h)
  head := ⟨c, r, rfl, by rcases hc with rfl | rfl <;> decide⟩
  last := by
    obtain ⟨r, d, rfl⟩ := exists_concat hne
    have hd := h d (by simp)
    exact ⟨c :: r, d, rfl, isBlank_of_nameChar hd, beforeSign_of_nameChar hd⟩

/-- Where it is none of the operators of the level, a sign is passed over. -/
theorem operatorAt_sign {c : Char} (hc : c = '+' ∨ c = '-') {ops : Level} {sign : Bool}
    (hs : sign = true ∨ ∀ op ∈ ops, op.isSign = false) (m : Marked) :
    operatorAt ops sign ((c, true) :: m) = none := by
  rw [operatorAt_eq_none]
  intro op hop hat
  obtain ⟨-, s, hs'⟩ := symbolAt_cons hat
  have hsign : op.isSign = true :=
    isSign_of_opensOperand hs' (by rcases hc with rfl | rfl <;> decide)
  refine ⟨hsign, hs.resolve_right ?_⟩
  intro hno
  rw [hno op hop] at hsign
  cases hsign

/-- Behind a sign and name characters nothing is found if the sign is not an operator there. -/
theorem solid_of_signed {c : Char} {r : List Char} (hc : c = '+' ∨ c = '-') (h : ∀ d ∈ r, isNameChar d)
    {ops : Level} {sign : Bool} (hs : sign = true ∨ ∀ op ∈ ops, op.isSign = false) :
    Solid ops sign (marked (c :: r)) := by
  rw [marked_of_flat (isFlat_of_signed hc h)]
  apply Solid.cons (operatorAt_sign hc hs _)
  exact solid_of_not_beforeSign (fun d hd => beforeSign_of_nameChar (h d hd)) ops _ _

theorem isOperand_inQuotes {q : Char} {s : List Char} (hq : Scan.isQuote q) (hs : q ∉ s) :
    IsOperand (inQuotes q s) := by
  have hc : q = '\'' ∨ q = '"' := by simpa [Scan.isQuote] using hq
  refine ⟨balanced_inQuotes hq hs, ⟨q, s ++ [q], rfl, ?_⟩, ⟨q :: s, q, rfl, ?_, ?_⟩⟩ <;>
    rcases hc with rfl | rfl <;> decide

theorem isOperand_bracketed {t : List Char} (h : Balanced t) : IsOperand (bracketed t) :=
  ⟨run_bracketed h, ⟨'(', t ++ [')'], rfl, by decide⟩, ⟨'(' :: t, ')', rfl, by decide, by decide⟩⟩

theorem SpellsLeaf.isOperand {e : Expr} {t : List Char} (h : SpellsLeaf e t) : IsOperand t := by
  obtain ⟨hne, hn⟩ | ⟨c, ds, hc, hd, rfl⟩ | ⟨q, s, hq, hs, rfl⟩ := h.form
  · exact isOperand_of_nameChars hne hn
  · exact isOperand_of_signed hc hd.1 fun d h => isNameChar_of_digit (hd.2 d h)
  · exact isOperand_inQuotes hq hs

theorem SpellsLeaf.solid {e : Expr} {t : List Char} (h : SpellsLeaf e t) (ops : Level) :
    Solid ops true (marked t) := by
  obtain ⟨hne, hn⟩ | ⟨c, ds, hc, hd, rfl⟩ | ⟨q, s, hq, hs, rfl⟩ := h.form
  · rw [marked_of_flat fun c hc => isFlat_of_nameChar (hn c hc)]
    exact solid_of_not_beforeSign (fun c hc => beforeSign_of_nameChar (hn c hc)) ops _ _
  · exact solid_of_signed hc (fun d h => isNameChar_of_digit (hd.2 d h)) (.inl rfl)
  · rw [marked_inQuotes hq hs]
    exact solid_of_hidden ops _ _

/-! ## Operators between operands -/

theorem isFlat_of_mem_chars {op : Operator} {c : Char} (h : c ∈ op.chars) : isFlat c = true := by
  have hall : op.chars.all isFlat = true := by cases op <;> rfl
  exact List.all_eq_true.1 hall c h

theorem not_blank_of_mem_chars {op : Operator} {c : Char} (h : c ∈ op.chars) :
    Text.isBlank c = false := by
  have hall : (op.chars.all fun c => !Text.isBlank c) = true := by cases op <;> rfl
  simpa using List.all_eq_true.1 hall c h

theorem Gap.balanced {u : List Char} (h : Gap u) : Balanced u :=
  balanced_of_flat fun c hc => isFlat_of_plain (h c hc)

theorem Gap.marked {u : List Char} (h : Gap u) : marked u = u.map (·, true) :=
  marked_of_flat fun c hc => isFlat_of_plain (h c hc)

theorem Gap.solid {u : List Char} (h : Gap u) (ops : Level) (sign : Bool) :
    Solid ops sign (u.map (·, true)) :=
  solid_of_not_beforeSign (fun c hc => beforeSign_of_plain (h c hc)) ops sign true

theorem Gap.seam {u : List Char} (h : Gap u) : Seam (u.map (·, true)) := by
  intro p hp
  rw [List.getLast?_map] at hp
  obtain ⟨c, hc, rfl⟩ := Option.map_eq_some_iff.1 hp
  exact beforeSign_of_plain (h c (List.mem_of_getLast? hc))

theorem Gap.signs {u : List Char} (h : Gap u) (sign : Bool) : signs sign (u.map (·, true)) = sign := by
  induction u with
  | nil => rfl
  | cons c u ih =>
    rw [List.map_cons, signs_cons, signAfter, if_pos (h c List.mem_cons_self)]
    exact ih fun d hd => h d (List.mem_cons_of_mem _ hd)

theorem marked_between {s u v t : List Char} (op : Operator) (hs : Balanced s) (hu : Gap u)
    (hv : Gap v) :
    marked (s ++ (u ++ (op.chars ++ (v ++ t)))) =
      marked s ++ (u.map (·, true) ++ (op.chars.map (·, true) ++ (v.map (·, true) ++ marked t))) := by
  have hop : Balanced op.chars := balanced_of_flat fun c hc => isFlat_of_mem_chars hc
  rw [marked_append hs, marked_append hu.balanced, marked_append hop, marked_append hv.balanced,
    hu.marked, hv.marked, marked_of_flat fun c hc => isFlat_of_mem_chars hc]

/-- A looser operator never stands where a tighter one does. -/
theorem symbolAt_looser {o op : Operator} (hr : o.rank < op.rank) {p : Char × Bool} (hp : p.1 ≠ '=')
    (m : Marked) (n : Nat) (hn : n < op.chars.length) :
    symbolAt o.chars ((op.chars.map (·, true)).drop n ++ p :: m) = false := by
  -- Only an `=` behind the symbol could turn it, or its second half, into another one.
  obtain ⟨c, b⟩ := p
  have hc : ('=' == c) = false := beq_eq_false_iff_ne.2 (Ne.symm hp)
  match n, hn with
  | 0, _ => cases op <;> cases o <;> simp_all [Operator.rank, Operator.chars, symbolAt]
  | 1, _ => cases op <;> cases o <;> simp_all [Operator.rank, Operator.chars, symbolAt]
  | n + 2, hn =>
    have : op.chars.length ≤ 2 := by cases op <;> decide
    omega

/-- Over a tighter symbol the scan for looser ones goes on. -/
theorem cutFrom_tighter {ops : Level} {op : Operator} (hr : ∀ o ∈ ops, o.rank < op.rank)
    {p : Char × Bool} (hp : p.1 ≠ '=') (m : Marked) (sign : Bool) :
    cutFrom ops sign 0 (op.chars.map (·, true) ++ p :: m) =
      (Cut.mk op.chars []).append (cutFrom ops true 0 (p :: m)) := by
  have hat : ∀ n < op.chars.length, ∀ s,
      operatorAt ops s ((op.chars.map (·, true)).drop n ++ p :: m) = none := by
    intro n hn s
    refine operatorAt_eq_none.2 fun o ho hs => ?_
    rw [symbolAt_looser (hr o ho) hp m n hn] at hs
    cases hs
  have key : ∀ (y : List Char) (s : Bool), signs s (y.map (·, true)) = true →
      (∀ n < y.length, ∀ s, operatorAt ops s ((y.map (·, true)).drop n ++ p :: m) = none) →
      cutFrom ops s 0 (y.map (·, true) ++ p :: m) =
        (Cut.mk y []).append (cutFrom ops true 0 (p :: m)) := by
    intro y
    induction y with
    | nil =>
      intro s hs _
      cases hs
      rfl
    | cons c y ih =>
      intro s hs hy
      have hc : operatorAt ops s ((c, true) :: (y.map (·, true) ++ p :: m)) = none :=
        hy 0 (Nat.succ_pos _) s
      rw [List.map_cons, List.cons_append, cutFrom_of_none hc,
        ih _ hs fun n hn s => hy (n + 1) (Nat.succ_lt_succ hn) s]
      rfl
  exact key op.chars sign (signs_symbol op sign true) hat

theorem solid_symbol {ops : Level} {op : Operator} (hr : ∀ o ∈ ops, o.rank < op.rank)
    {p : Char × Bool} (hp : p.1 ≠ '=') {m : Marked} (hm : Solid ops true (p :: m)) (sign : Bool) :
    Solid ops sign (op.chars.map (·, true) ++ p :: m) := by
  unfold Solid
  rw [cutFrom_tighter hr hp, hm, Cut.append_lone, List.map_append, map_fst_map]

/-! ## Spelled texts -/

theorem IsOperand.append_gap_head {t v : List Char} (ht : IsOperand t) (hv : Gap v) :
    ∃ p m, v.map (·, true) ++ marked t = p :: m ∧ p.1 ≠ '=' := by
  cases v with
  | nil =>
    obtain ⟨c, r, rfl, ho⟩ := ht.head
    exact ⟨_, _, rfl, by rintro rfl; exact absurd ho (by decide)⟩
  | cons c v =>
    refine ⟨_, _, rfl, ?_⟩
    rintro rfl
    exact absurd (hv _ List.mem_cons_self) (by decide)

theorem Balanced.gap_append {u v t : List Char} (hu : Gap u) (hv : Gap v) (ht : Balanced t) :
    Balanced (u ++ (t ++ v)) := hu.balanced.append (ht.append hv.balanced)

theorem Spells.isOperand {n k : Nat} {e : Expr} {t : List Char} (h : Spells n k e t) : IsOperand t := by
  induction h with
  | leaf h => exact h.isOperand
  | bracket hu hv _ ih => exact isOperand_bracketed (Balanced.gap_append hu hv ih.balanced)
  | @binary n k op l r s t u v hk _ hu hv _ ihs iht =>
    have hop : Balanced op.chars := balanced_of_flat fun c hc => isFlat_of_mem_chars hc
    refine ⟨ihs.balanced.append (hu.balanced.append (hop.append (hv.balanced.append iht.balanced))),
      ?_, ?_⟩
    · obtain ⟨c, r, rfl, hc⟩ := ihs.head
      exact ⟨c, _, rfl, hc⟩
    · obtain ⟨r, c, rfl, hc⟩ := iht.last
      exact ⟨s ++ (u ++ (op.chars ++ (v ++ r))), c, by simp, hc⟩

/-- Outside brackets a spelling has no looser operators than it is allowed. -/
theorem Spells.solid {n k : Nat} {e : Expr} {t : List Char} (h : Spells n k e t) {ops : Level}
    (hops : ∀ o ∈ ops, o.rank < k) : Solid ops true (marked t) := by
  induction h with
  | leaf h => exact h.solid ops
  | bracket hu hv h _ =>
    rw [marked_bracketed (Balanced.gap_append hu hv h.isOperand.balanced)]
    exact solid_of_hidden ops _ _
  | @binary n k op l r s t u v hk hs hu hv ht ihs iht =>
    have hlt : ∀ o ∈ ops, o.rank < op.rank := fun o ho => Nat.lt_of_lt_of_le (hops o ho) hk
    have hright : Solid ops true (v.map (·, true) ++ marked t) := by
      refine (hv.solid ops true).append hv.seam ?_
      rw [hv.signs]
      exact iht fun o ho => Nat.lt_succ_of_lt (hlt o ho)
    obtain ⟨p, m, hpm, hp⟩ := ht.isOperand.append_gap_head hv
    rw [marked_between op hs.isOperand.balanced hu hv]
    refine (ihs hlt).append hs.isOperand.seam ?_
    refine (hu.solid ops _).append hu.seam ?_
    rw [hpm] at hright ⊢
    exact solid_symbol hlt hp hright _

end Stencil
