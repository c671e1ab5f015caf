import Stencil.Proofs.Expr.Dispatch
import Stencil.Proofs.Expr.Signs

/-!
# Decimals

A decimal is a sign, digits around a point and an exponent. Read as one operand it is a number, and
it is one number also among operators as long as its exponent has no sign. A sign in the exponent is
taken for an operator: what stands before it is no number then, and is left as it is.
-/

namespace Stencil

open Stencil.Expr (Context)

/-- A sign and digits around a point, at least one. -/
inductive SpellsMantissa : Numeral → List Char → Prop
  | mk {s ds fs : List Char} : IsSign s → AllDigits ds → AllDigits fs → ds ++ fs ≠ [] →
      SpellsMantissa ⟨s == ['-'], Numeral.ofDigits (ds ++ fs), -fs.length⟩ (s ++ (ds ++ '.' :: fs))

inductive SpellsExponent : Int → List Char → Prop
  | none : SpellsExponent 0 []
  | letter {e : Char} {z : Int} {t : List Char} : e = 'e' ∨ e = 'E' → SpellsInt z t →
      SpellsExponent z (e :: t)

/-- The number times a power of ten. -/
def Numeral.scaled (n : Numeral) (z : Int) : Numeral := { n with exponent := n.exponent + z }

def Unsigned (t : List Char) : Prop := '+' ∉ t ∧ '-' ∉ t

instance (t : List Char) : Decidable (Unsigned t) := inferInstanceAs (Decidable (_ ∧ _))

/-! ## Words with a sign -/

/-- Name characters, at least one, maybe behind a sign. -/
def IsStem (t : List Char) : Prop :=
  ∃ s r, t = s ++ r ∧ IsSign s ∧ r ≠ [] ∧ ∀ c ∈ r, isNameChar c

namespace IsStem

variable {t : List Char}

theorem append (h : IsStem t) {x : List Char} (hx : ∀ c ∈ x, isNameChar c) : IsStem (t ++ x) := by
  obtain ⟨s, r, rfl, hs, hne, hr⟩ := h
  refine ⟨s, r ++ x, List.append_assoc s r x, hs, List.append_ne_nil_of_left_ne_nil hne x, ?_⟩
  intro c hc
  exact (List.mem_append.1 hc).elim (hr c) (hx c)

/-- The sign stands apart as one character, if there is one. -/
theorem cases (h : IsStem t) : (t ≠ [] ∧ ∀ c ∈ t, isNameChar c) ∨
    ∃ c r, (c = '+' ∨ c = '-') ∧ r ≠ [] ∧ (∀ d ∈ r, isNameChar d) ∧ t = c :: r := by
  obtain ⟨s, r, rfl, rfl | rfl | rfl, hne, hr⟩ := h
  · exact .inl ⟨hne, hr⟩
  · exact .inr ⟨'+', r, .inl rfl, hne, hr, rfl⟩
  · exact .inr ⟨'-', r, .inr rfl, hne, hr, rfl⟩

theorem isOperand (h : IsStem t) : IsOperand t := by
  obtain ⟨hne, hr⟩ | ⟨c, r, hc, hne, hr, rfl⟩ := h.cases
  · exact isOperand_of_nameChars hne hr
  · exact isOperand_of_signed hc hne hr

theorem solid (h : IsStem t) (ops : Level) : Solid ops true (marked t) := by
  obtain ⟨hne, hr⟩ | ⟨c, r, hc, -, hr, rfl⟩ := h.cases
  · exact (inert_of_nameChars hne hr).solid ops true
  · exact solid_of_signed hc hr (.inl rfl)

theorem enclosed (h : IsStem t) : enclosed t = none := by
  obtain ⟨hne, hr⟩ | ⟨c, r, hc, -, -, rfl⟩ := h.cases
  · obtain ⟨c, r, rfl⟩ := List.exists_cons_of_ne_nil hne
    exact enclosed_eq_none (ne_of_nameChar (hr c List.mem_cons_self) rfl) r
  · exact enclosed_eq_none (by rcases hc with rfl | rfl <;> decide) r

theorem fits (h : IsStem t) {p : List Char} (hp : Unsigned t ∨ SignFits p) (o : List Char) :
    Fits levels p o t := by
  obtain ⟨hne, hr⟩ | ⟨c, r, hc, -, hr, rfl⟩ := h.cases
  · exact (inert_of_nameChars hne hr).fits levels p o
  · refine fits_of_signed hc hr (hp.resolve_left fun hu => ?_) o
    rcases hc with rfl | rfl
    · exact hu.1 List.mem_cons_self
    · exact hu.2 List.mem_cons_self

end IsStem

/-! ## Reading one operand -/

theorem SpellsExponent.isExponent {z : Int} {x : List Char} (h : SpellsExponent z x) : IsExponent x := by
  cases h with
  | none => exact .inl rfl
  | letter he ht => exact .inr ⟨_, z, _, he, ht, rfl⟩

theorem SpellsExponent.exponent? {z : Int} {x : List Char} (h : SpellsExponent z x) :
    Numeral.exponent? x = some z := by
  cases h with
  | none => rfl
  | letter he ht => rcases he with rfl | rfl <;> exact ht.int?

namespace SpellsMantissa

variable {n : Numeral} {m : List Char} (h : SpellsMantissa n m)
include h

theorem isStem : IsStem m := by
  obtain @⟨s, ds, fs, hs, hd, hf, -⟩ := h
  refine ⟨s, ds ++ '.' :: fs, rfl, hs, by simp, fun c hc => ?_⟩
  rcases List.mem_append.1 hc with hc | hc
  · exact isNameChar_of_digit (hd c hc)
  · rcases List.mem_cons.1 hc with rfl | hc
    · rfl
    · exact isNameChar_of_digit (hf c hc)

/-- With the beginning of an exponent behind it, a mantissa is as much of a number as the exponent. -/
theorem read?_append {x : List Char} (hx : ∀ c u, x = c :: u → c = 'e' ∨ c = 'E') :
    Numeral.read? (m ++ x) = (Numeral.exponent? x).map n.scaled := by
  obtain @⟨s, ds, fs, hs, hd, hf, hne⟩ := h
  have ha : (ds ++ '.' :: fs).any Char.isDigit = true := by
    obtain ⟨c, hc⟩ := List.exists_mem_of_ne_nil _ hne
    have hdigit : c.isDigit = true := (List.mem_append.1 hc).elim (hd c) (hf c)
    refine List.any_eq_true.2 ⟨c, ?_, hdigit⟩
    exact List.mem_append.2 ((List.mem_append.1 hc).imp_right (List.mem_cons_of_mem _))
  have e := Stencil.read?_append hs hd (.inr ⟨fs, hf, rfl⟩) hx ha
  rw [List.append_assoc, List.append_assoc, e]
  refine Option.map_congr fun z _ => congrArg (Numeral.mk _ _) ?_
  show z - (fs.length : Int) = -fs.length + z
  omega

theorem mem_point : '.' ∈ m := by
  obtain @⟨s, ds, fs, -, -, -, -⟩ := h
  simp

theorem startsNumber : ∃ c r, m = c :: r ∧ (c.isDigit || c == '+' || c == '-' || c == '.') = true ∧
    m.any Char.isDigit = true := by
  have hspells : SpellsNumber (m ++ []) := by
    rw [← isSome_read?_iff, h.read?_append (fun _ _ e => by cases e)]
    rfl
  rw [List.append_nil] at hspells
  exact hspells.startsNumber

theorem number?_append {x : List Char} (hx : ∀ c u, x = c :: u → c = 'e' ∨ c = 'E') :
    Literal.number? (m ++ x) =
      (Numeral.exponent? x).map fun z => .ok (.float (n.scaled z).toDouble) := by
  obtain ⟨c, r, rfl, hc, ha⟩ := h.startsNumber
  have hread := h.read?_append hx
  have hp : ((c :: r) ++ x).contains '.' = true :=
    List.contains_iff_mem.2 (List.mem_append_left _ h.mem_point)
  have ha' : ((c :: r) ++ x).any Char.isDigit = true := by rw [List.any_append, ha, Bool.true_or]
  rw [List.cons_append] at hread hp ha' ⊢
  simp only [Literal.number?, hc, ha', Bool.not_true, Bool.or_false, Bool.false_eq_true, if_false, hread,
    hp, if_true, Option.map_map]
  rfl

end SpellsMantissa

/-- What starts like a number and is none is left as it is. -/
theorem ofToken_of_no_number {c : Char} {r : List Char}
    (hc : (c.isDigit || c == '+' || c == '-' || c == '.') = true) (hn : Literal.number? (c :: r) = none) :
    Expr.ofToken (c :: r) = .ok (.raw (String.ofList (c :: r))) := by
  have hletter : (c.isAlpha || c == '_') ≠ true := by
    intro hl
    rw [startsNumber_of_letter hl] at hc
    cases hc
  have hquote : Scan.isQuote c = false := by
    rw [← Bool.not_eq_true]
    intro hq
    rw [startsNumber_of_quote hq] at hc
    cases hc
  have hword : ∀ {w : String} {d : Char} {ds : List Char}, w.toList = d :: ds → d.isLower →
      ¬ IsWord w (c :: r) := fun hw hd h => by
    obtain ⟨c', r', e, hl⟩ := h.head hw hd
    cases e
    exact hletter hl
  have htruth : Literal.truth? (c :: r) = none := truth?_of_not_word (hword rfl rfl) (hword rfl rfl)
  have hident : isIdentifier (c :: r) = false := by
    rw [isIdentifier, Bool.eq_false_iff.2 hletter, Bool.false_and]
  simp only [Expr.ofToken, hn, quoted?_eq_none hquote, htruth, hident, Bool.false_eq_true, if_false]

theorem ofOperand_of_no_brackets {inner : List Char → Except Fault Expr} {t : List Char}
    (ht : IsOperand t) (he : enclosed t = none) : Expr.ofOperand inner t = Expr.ofToken t := by
  rw [ofOperand_of_ne_nil ht.tight.ne_nil, he]

/-! ## Cutting at one operator -/

section
variable {inner : List Char → Except Fault Expr} {s t : List Char} {op : Operator}

theorem climb_token {ls : List Level} (ht : IsOperand t) (hs : ∀ ops ∈ ls, Solid ops true (marked t))
    (he : enclosed t = none) : Expr.climb inner ls t = Expr.ofToken t := by
  have hgap : Gap [] := fun _ h => absurd h List.not_mem_nil
  have h : Expr.climb inner ls ([] ++ (t ++ [])) = _ := climb_operand ht hgap hgap hs
  rwa [List.nil_append, List.append_nil, he] at h

theorem IsOperand.between (hs : IsOperand s) (op : Operator) (ht : IsOperand t) :
    IsOperand (s ++ (op.chars ++ t)) where
  balanced := hs.balanced.append ((balanced_symbol op).append ht.balanced)
  head := by
    obtain ⟨c, r, rfl, hc⟩ := hs.head
    exact ⟨c, _, rfl, hc⟩
  last := by
    obtain ⟨r, c, rfl, hc⟩ := ht.last
    exact ⟨s ++ (op.chars ++ r), c, by simp, hc⟩

theorem cut_between {ops : Level} (hl : ops ∈ levels) (hop : op ∈ ops) (hs : IsOperand s)
    (hss : Solid ops true (marked s)) (hts : Solid ops true (marked t)) :
    cut ops (marked (s ++ (op.chars ++ t))) = ⟨s, [(op, t)]⟩ := by
  have hcut := hs.cut (m := []) hss (op.chars.map (·, true) ++ marked t)
  rw [cutFrom_of_some (operatorAt_of_mem hl hop (fun _ => rfl) _), hts, map_fst_marked] at hcut
  rw [marked_append hs.balanced, marked_symbol]
  refine hcut.trans ?_
  simp [Cut.start, Cut.append, Cut.graft]

theorem Cut.read_pair (rd : List Char → Except Fault Expr) (s : List Char) (op : Operator)
    (t : List Char) : Cut.read rd ⟨s, [(op, t)]⟩ = (rd s).bind fun l => (rd t).map (.binary l op ·) := by
  rw [read, readWith_cons]
  cases rd s with
  | error f => rfl
  | ok l =>
    simp only [Except.bind, readWith]
    cases rd t <;> rfl

/-- Only operators that may be signs start like an operand. -/
theorem solid_of_opensOperand {ops : Level} (hops : ∀ op ∈ ops, op.isSign = false) {t : List Char}
    (h : ∀ c ∈ t, opensOperand c = true) (sign top : Bool) : Solid ops sign (t.map (·, top)) := by
  induction t generalizing sign with
  | nil => rfl
  | cons c t ih =>
    refine Solid.cons (operatorAt_eq_none.2 fun op hop hat => ?_)
      (ih (fun d hd => h d (List.mem_cons_of_mem _ hd)) _)
    obtain ⟨-, r, hr⟩ := symbolAt_cons hat
    have hsign : op.isSign = true := isSign_of_opensOperand hr (h c List.mem_cons_self)
    rw [hops op hop] at hsign
    cases hsign

end

/-! ## Texts of one operand -/

section
variable {t : List Char}

theorem allBlank_operand (ht : IsOperand t) : Text.allBlank (String.ofList t) = false :=
  allBlank_eq_false (p := []) (q := []) (by simp) ht

theorem simple_read_operand (ht : IsOperand t) (he : enclosed t = none) :
    Reader.simple.read (String.ofList t) = Expr.orRaw (String.ofList t) (Expr.ofToken t) := by
  show Expr.ofWord _ = _
  rw [Expr.ofWord, allBlank_operand ht, String.toList_ofList, ht.tight.trim, ofOperand_of_no_brackets ht he]
  rfl

theorem standard_read_operand (ht : IsOperand t) (hw : OneWord t) :
    Reader.standard.read (String.ofList t) = Reader.binary.read (String.ofList t) := by
  refine (Reader.standard_read_of_supports (.inr ?_)).2 ?_
  · rwa [Reader.simple_supports_iff, String.toList_ofList]
  · rw [String.toList_ofList]
    exact ht.balanced

theorem IsStem.binary_read (h : IsStem t) :
    Reader.binary.read (String.ofList t) = Expr.orRaw (String.ofList t) (Expr.ofToken t) := by
  show Expr.ofText _ = _
  rw [Expr.ofText, allBlank_operand h.isOperand, String.toList_ofList, Expr.ofNested_eq,
    climb_token h.isOperand (fun ops _ => h.solid ops) h.enclosed]
  rfl

end

/-! ## Reading decimals -/

theorem isNumberChar_cases {c : Char} (h : isNumberChar c) : isNameChar c = true ∨ c = '+' ∨ c = '-' := by
  have hall : "+-.eE".toList.all (fun c => isNameChar c || c == '+' || c == '-') = true := by decide
  rw [isNumberChar, Bool.or_eq_true, List.contains_iff_mem] at h
  rcases h with h | h
  · exact .inl (isNameChar_of_digit h)
  · simpa [or_assoc] using List.all_eq_true.1 hall c h

theorem opensOperand_of_numberChar {c : Char} (h : isNumberChar c) : opensOperand c = true := by
  rcases isNumberChar_cases h with hn | rfl | rfl
  · exact opensOperand_of_nameChar hn
  · rfl
  · rfl

theorem isFlat_of_numberChar {c : Char} (h : isNumberChar c) : isFlat c = true :=
  (isNumberChar_cases h).elim isFlat_of_nameChar isFlat_of_sign

/-- A text of number characters has no white space, so the chain reads it with all operators. -/
theorem oneWord_of_numberChars {t : List Char} (h : ∀ c ∈ t, isNumberChar c) : OneWord t := by
  constructor
  · intro hc
    cases h ' ' hc
  · intro hc
    cases h '\t' hc

theorem IsDigits.isStem {ds : List Char} (h : IsDigits ds) : IsStem ds :=
  ⟨[], ds, rfl, .inl rfl, h.1, fun c hc => isNameChar_of_digit (h.2 c hc)⟩

/-- The letter of an exponent and digits, maybe none, are no more than name characters. -/
theorem nameChars_exponent {e : Char} (he : e = 'e' ∨ e = 'E') {ds : List Char} (hd : AllDigits ds) :
    ∀ c ∈ e :: ds, isNameChar c := by
  intro c hc
  rcases List.mem_cons.1 hc with rfl | hc
  · rcases he with rfl | rfl <;> rfl
  · exact isNameChar_of_digit (hd c hc)

theorem SpellsExponent.nameChars {z : Int} {x : List Char} (h : SpellsExponent z x) (hu : Unsigned x) :
    ∀ c ∈ x, isNameChar c := by
  cases h with
  | none => intro c hc; cases hc
  | letter he ht =>
    cases ht with
    | plain hd => exact nameChars_exponent he hd.2
    | plus hd => exact absurd (List.mem_cons_of_mem _ List.mem_cons_self) hu.1
    | minus hd => exact absurd (List.mem_cons_of_mem _ List.mem_cons_self) hu.2

theorem SpellsInt.digits_of_signed {z : Int} {op : Operator} {ds : List Char}
    (h : SpellsInt z (op.chars ++ ds)) (ho : op.isSign = true) : IsDigits ds := by
  cases op with
  | add =>
    generalize ht : Operator.chars .add ++ ds = t at h
    cases h with
    | plain hd => subst ht; cases hd.2 '+' List.mem_cons_self
    | plus hd => cases ht; exact hd
    | minus hd => cases ht
  | sub =>
    generalize ht : Operator.chars .sub ++ ds = t at h
    cases h with
    | plain hd => subst ht; cases hd.2 '-' List.mem_cons_self
    | plus hd => cases ht
    | minus hd => cases ht; exact hd
  | _ => cases ho

/-- What stands before the sign of an exponent. -/
theorem SpellsMantissa.isStem_open {n : Numeral} {m : List Char} (hm : SpellsMantissa n m) {e : Char}
    (he : e = 'e' ∨ e = 'E') : IsStem (m ++ [e]) :=
  hm.isStem.append (nameChars_exponent he (List.forall_mem_nil _))

section
variable {n : Numeral} {m : List Char} (hm : SpellsMantissa n m) {z : Int} {x : List Char}
  (hx : SpellsExponent z x)
include hm hx

theorem ofToken_decimal : Expr.ofToken (m ++ x) = .ok (.literal (.float (n.scaled z).toDouble)) := by
  rw [Expr.ofToken, hm.number?_append hx.isExponent.head, hx.exponent?]
  rfl

theorem numberChar_of_decimal : ∀ c ∈ m ++ x, isNumberChar c := by
  have h : SpellsNumber (m ++ x) := by
    rw [← isSome_read?_iff, hm.read?_append hx.isExponent.head, hx.exponent?]
    rfl
  exact h.chars

theorem isOperand_decimal : IsOperand (m ++ x) := by
  have hsigned : ∀ (op : Operator) {e ds}, e = 'e' ∨ e = 'E' → IsDigits ds →
      IsOperand (m ++ e :: (op.chars ++ ds)) := by
    intro op e ds he hd
    rw [← List.singleton_append, ← List.append_assoc]
    exact (hm.isStem_open he).isOperand.between op hd.isStem.isOperand
  cases hx with
  | none => exact (List.append_nil m).symm ▸ hm.isStem.isOperand
  | letter he ht =>
    cases ht with
    | plain hd => exact (hm.isStem.append (nameChars_exponent he hd.2)).isOperand
    | plus hd => exact hsigned .add he hd
    | minus hd => exact hsigned .sub he hd

theorem enclosed_decimal : enclosed (m ++ x) = none := by
  obtain ⟨c, r, e, hc⟩ := (isOperand_decimal hm hx).head
  have := numberChar_of_decimal hm hx c (e ▸ List.mem_cons_self)
  rw [e]
  refine enclosed_eq_none ?_ r
  rintro rfl
  cases this

theorem simple_read_decimal :
    Reader.simple.read (String.ofList (m ++ x)) = .literal (.float (n.scaled z).toDouble) := by
  rw [simple_read_operand (isOperand_decimal hm hx) (enclosed_decimal hm hx), ofToken_decimal hm hx]
  rfl

/-- Levels looser than that of the signs find nothing to cut. -/
theorem solid_decimal {ops : Level} (hops : ops ∈ levels.take 5) : Solid ops true (marked (m ++ x)) := by
  have hall : ∀ ops ∈ levels.take 5, ∀ op ∈ ops, op.isSign = false := by decide
  have hchars := numberChar_of_decimal hm hx
  rw [marked_of_flat fun c hc => isFlat_of_numberChar (hchars c hc)]
  exact solid_of_opensOperand (hall ops hops) (fun c hc => opensOperand_of_numberChar (hchars c hc)) true true

theorem standard_read_decimal : Reader.standard.read (String.ofList (m ++ x)) =
    Reader.binary.read (String.ofList (m ++ x)) :=
  standard_read_operand (isOperand_decimal hm hx) (oneWord_of_numberChars (numberChar_of_decimal hm hx))

theorem binary_read_decimal (hu : Unsigned x) :
    Reader.binary.read (String.ofList (m ++ x)) = .literal (.float (n.scaled z).toDouble) := by
  rw [(hm.isStem.append (hx.nameChars hu)).binary_read, ofToken_decimal hm hx]
  rfl

end

/-! ## A sign in the exponent -/

theorem SpellsInt.ofToken {z : Int} {t : List Char} (h : SpellsInt z t) : Expr.ofToken t =
    match Literal.ofInt? z with
    | some l => .ok (.literal l)
    | none => .error .outOfRange := by
  rw [Expr.ofToken, h.number?_eq]
  cases Literal.ofInt? z <;> rfl

section
variable {n : Numeral} {m : List Char} (hm : SpellsMantissa n m) {e : Char} (he : e = 'e' ∨ e = 'E')
include hm he

theorem ofToken_open_exponent :
    Expr.ofToken (m ++ [e]) = .ok (.raw (String.ofList (m ++ [e]))) := by
  have hn : Literal.number? (m ++ [e]) = none := by
    rw [hm.number?_append (fun c u h => (List.cons.inj h).1 ▸ he)]
    rcases he with rfl | rfl <;> rfl
  obtain ⟨c, r, rfl, hc, -⟩ := hm.startsNumber
  exact ofToken_of_no_number hc hn

theorem cut_signed {op : Operator} (ho : op.isSign = true) {ds : List Char} (hd : IsDigits ds) :
    cut [.add, .sub] (marked (m ++ e :: (op.chars ++ ds))) = ⟨m ++ [e], [(op, ds)]⟩ := by
  have hstem := hm.isStem_open he
  have hl : [.add, .sub] ∈ levels := by decide
  have hop : op ∈ [Operator.add, Operator.sub] := by
    revert ho
    cases op <;> decide
  rw [← List.singleton_append (x := e), ← List.append_assoc]
  exact cut_between hl hop hstem.isOperand (hstem.solid _) (hd.isStem.solid _)

/-- The level of the sign is the first one with something to cut. -/
theorem climb_signed (inner : List Char → Except Fault Expr) {op : Operator} (ho : op.isSign = true)
    {ds : List Char} (hd : IsDigits ds) {z : Int} (hx : SpellsExponent z (e :: (op.chars ++ ds))) :
    Expr.climb inner levels (m ++ e :: (op.chars ++ ds)) =
      match Literal.ofInt? (Numeral.ofDigits ds) with
      | some l => .ok (.binary (.raw (String.ofList (m ++ [e]))) op (.literal l))
      | none => .error .outOfRange := by
  have ht := isOperand_decimal hm hx
  have htoken : ∀ {t}, IsStem t → Expr.climb inner [[.mul, .div, .rem]] t = Expr.ofToken t := fun hs =>
    climb_token hs.isOperand (fun ops _ => hs.solid ops) hs.enclosed
  have hsplit : levels = levels.take 5 ++ [.add, .sub] :: [[.mul, .div, .rem]] := rfl
  rw [hsplit, Expr.climb_of_solid ht.tight.trim ht _ _ fun ops => solid_decimal hm hx,
    Expr.climb_of_balanced ht.balanced, ht.tight.trim, cut_signed hm he ho hd, Cut.read_pair,
    htoken (hm.isStem_open he), htoken hd.isStem, ofToken_open_exponent hm he, (SpellsInt.plain hd).ofToken]
  cases Literal.ofInt? (Numeral.ofDigits ds) <;> rfl

theorem binary_read_signed {op : Operator} (ho : op.isSign = true) {ds : List Char} (hd : IsDigits ds)
    {z : Int} (hx : SpellsExponent z (e :: (op.chars ++ ds))) :
    Reader.binary.read (String.ofList (m ++ e :: (op.chars ++ ds))) =
      (Literal.ofInt? (Numeral.ofDigits ds)).elim (.raw (String.ofList (m ++ e :: (op.chars ++ ds))))
        fun l => .binary (.raw (String.ofList (m ++ [e]))) op (.literal l) := by
  have hr := climb_signed hm he (Expr.inside maxNesting) ho hd hx
  rw [← Expr.ofNested_eq, ← String.toList_ofList (l := m ++ e :: (op.chars ++ ds))] at hr
  cases hl : Literal.ofInt? (Numeral.ofDigits ds) with
  | some l =>
    rw [hl] at hr
    exact read_of_ok (allBlank_operand (isOperand_decimal hm hx)) hr
  | none =>
    rw [hl] at hr
    exact read_of_fails ⟨.outOfRange, hr⟩

end

/-! ## Decimals among operators -/

/-- A decimal is one number, as a text of its own and, when its exponent has no sign, in the place of
any variable, behind a sign of its own where a sign fits. An exponent with a sign is cut at the sign. -/
theorem decimals_whole {n : Numeral} {m : List Char} (hm : SpellsMantissa n m) {z : Int}
    {x : List Char} (hx : SpellsExponent z x) :
    let decimal := String.ofList (m ++ x)
    let number := Expr.literal (.float (n.scaled z).toDouble)
    Reader.simple.read decimal = number ∧
    (Unsigned x → Reader.standard.read decimal = number ∧
      ∀ p name q, Within maxNesting p name.toList q → isIdentifier name.toList →
        ¬ IsWord "true" name.toList → ¬ IsWord "false" name.toList →
        ¬ Fails (Expr.ofNested maxNesting (p ++ (name.toList ++ q))) → Unsigned m ∨ SignFits p →
        ∃ c : Context,
          Reader.binary.read (String.ofList (p ++ (name.toList ++ q))) = c.fill (.identifier name) ∧
          Reader.binary.read (String.ofList (p ++ (m ++ x ++ q))) = c.fill number) ∧
    ∀ e op ds, x = e :: (Operator.chars op ++ ds) → op.isSign = true →
      Reader.standard.read decimal = (Literal.ofInt? (Numeral.ofDigits ds)).elim (.raw decimal)
        fun l => .binary (.raw (String.ofList (m ++ [e]))) op (.literal l) := by
  intro decimal number
  have hchain : Reader.standard.read decimal = Reader.binary.read decimal := standard_read_decimal hm hx
  refine ⟨simple_read_decimal hm hx, fun hu => ⟨hchain.trans (binary_read_decimal hm hx hu), ?_⟩, ?_⟩
  · intro p name q hwithin hi htr hfa hok hp
    obtain ⟨b, hb⟩ := not_fails_iff.1 hok
    have hname := inert_identifier hi
    have hstem : IsStem (m ++ x) := hm.isStem.append (hx.nameChars hu)
    have hfit : Unsigned (m ++ x) ∨ SignFits p := by
      refine hp.imp_left fun hm' => ⟨fun h => ?_, fun h => ?_⟩
      · exact (List.mem_append.1 h).elim hm'.1 hu.1
      · exact (List.mem_append.1 h).elim hm'.2 hu.2
    obtain ⟨c, hc⟩ := hwithin.replace hname hb
    refine ⟨c, ?_, ?_⟩
    · have hread := hc name.toList _ hname.toIsOperand (hname.fits levels p _)
        fun rd => ofOperand_identifier (.identifier hi htr hfa)
      exact read_of_ok (allBlank_eq_false String.toList_ofList hname.toIsOperand)
        (by rw [String.toList_ofList, hread])
    · have hread := hc (m ++ x) number hstem.isOperand (hstem.fits hfit _) fun rd => by
        rw [ofOperand_of_no_brackets hstem.isOperand hstem.enclosed, ofToken_decimal hm hx]
      exact read_of_ok (allBlank_eq_false String.toList_ofList hstem.isOperand)
        (by rw [String.toList_ofList, hread])
  · intro e op ds hxe ho
    subst hxe
    cases hx with
    | letter he ht =>
      exact hchain.trans (binary_read_signed hm he ho (ht.digits_of_signed ho) (.letter he ht))

/-- A sign in the exponent, and one before the number in brackets. -/
theorem decimals_whole_signs :
    Reader.simple.read "1.5e-3" = .literal (.float ⟨0x3F589374BC6A7EFA⟩) ∧
    Reader.standard.read "1.5e-3" = .binary (.raw "1.5e") .sub (.literal (.int 3)) ∧
    ∃ c : Context, Reader.binary.read "a * (b + x)" = c.fill (.identifier "x") ∧
      Reader.binary.read "a * (b + -2.5e3)" = c.fill (.literal (.float ⟨0xC0A3880000000000⟩)) := by
  have digit : ∀ c : Char, c.isDigit = true → AllDigits [c] := fun c hc d hd => List.mem_singleton.1 hd ▸ hc
  have three : IsDigits ['3'] := ⟨List.cons_ne_nil _ _, digit '3' rfl⟩
  have hsmall := decimals_whole
    (.mk (.inl rfl) (digit '1' rfl) (digit '5' rfl) (List.cons_ne_nil _ _)) (.letter (.inl rfl) (.minus three))
  have hlarge := decimals_whole
    (.mk (.inr (.inr rfl)) (digit '2' rfl) (digit '5' rfl) (List.cons_ne_nil _ _))
    (.letter (.inl rfl) (.plain three))
  have hx : Inert "x".toList := inert_identifier rfl
  have hsum : OperandAt levels "b + ".toList "x".toList [] :=
    OperandAt.over [[.or], [.and], [.ge, .le], [.gt, .lt], [.eq, .ne]]
      (by decide +kernel) (by decide +kernel) (by decide +kernel)
      (hx.operandAt_last "b ".toList .add (v := [' ']) rfl (by decide +kernel)
        (by decide +kernel) (by decide +kernel) [[.mul, .div, .rem]])
  have hproduct : OperandAt levels "a * ".toList (bracketed ("b + ".toList ++ ("x".toList ++ []))) [] :=
    OperandAt.over [[.or], [.and], [.ge, .le], [.gt, .lt], [.eq, .ne], [.add, .sub]]
      (by decide +kernel) (by decide +kernel) (by decide +kernel)
      ((inert_bracketed (by decide +kernel)).operandAt_last "a ".toList .mul (v := [' '])
        rfl (by decide +kernel) (by decide +kernel) (by decide +kernel) [])
  have hwithin : Within maxNesting ("a * ".toList ++ '(' :: "b + ".toList) "x".toList ([] ++ ')' :: []) :=
    .inner (e := .binary (.identifier "b") .add (.identifier "x")) hproduct (by decide +kernel)
      (.operand hsum)
  have hok : ¬ Fails (Expr.ofNested maxNesting
      ("a * ".toList ++ '(' :: "b + ".toList ++ ("x".toList ++ ([] ++ ')' :: [])))) :=
    not_fails_iff.2 ⟨.binary (.identifier "a") .mul (.binary (.identifier "b") .add (.identifier "x")),
      by decide +kernel⟩
  have hfits : SignFits ("a * ".toList ++ '(' :: "b + ".toList) :=
    signFits_of_plain (by decide +kernel)
  refine ⟨?_, ?_, ?_⟩
  · exact hsmall.1.trans (by decide +kernel)
  · exact (hsmall.2.2 'e' .sub ['3'] rfl rfl).trans (by decide +kernel)
  · obtain ⟨c, hvar, hnum⟩ := (hlarge.2.1 (by decide)).2 _ "x" _ hwithin rfl (by decide) (by decide) hok
      (.inr hfits)
    refine ⟨c, hvar, hnum.trans (congrArg c.fill (by decide +kernel))⟩

end Stencil
