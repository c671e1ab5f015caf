import Stencil.Proofs.Expr.RoundTrip

/-!
# Numbers among the operands

`SpellsNumber` is the grammar of decimal numbers, and `Numeral.read?` takes just these texts. An
operand cannot be read as one when it is a number without a point and no integer of 64 bits.
-/

namespace Stencil

def AllDigits (ds : List Char) : Prop := ∀ c ∈ ds, c.isDigit = true

def IsSign (s : List Char) : Prop := s = [] ∨ s = ['+'] ∨ s = ['-']

/-- A point and the digits behind it, or nothing. -/
def IsFraction (f : List Char) : Prop := f = [] ∨ ∃ ds, AllDigits ds ∧ f = '.' :: ds

def IsExponent (x : List Char) : Prop :=
  x = [] ∨ ∃ e z t, (e = 'e' ∨ e = 'E') ∧ SpellsInt z t ∧ x = e :: t

/-- A sign, digits with at most one point among or beside them, and an exponent. -/
def SpellsNumber (t : List Char) : Prop :=
  ∃ s ds f x, t = s ++ (ds ++ (f ++ x)) ∧ IsSign s ∧ AllDigits ds ∧ IsFraction f ∧ IsExponent x ∧
    (ds ++ f).any Char.isDigit = true

/-- A number without a point that is no integer of 64 bits. -/
def OutOfRange (t : List Char) : Prop :=
  SpellsNumber t ∧ '.' ∉ t ∧ ¬ ∃ v : Int64, SpellsInt v.toInt t

/-! ## Integers -/

theorem sign_cases (t : List Char) :
    ∃ s r, t = s ++ r ∧ IsSign s ∧ Numeral.sign t = (s == ['-'], r) := by
  unfold Numeral.sign
  split
  · exact ⟨['-'], _, rfl, .inr (.inr rfl), rfl⟩
  · exact ⟨['+'], _, rfl, .inr (.inl rfl), rfl⟩
  · exact ⟨[], _, rfl, .inl rfl, rfl⟩

theorem digits?_eq_some {t : List Char} {n : Nat} (h : Numeral.digits? t = some n) :
    IsDigits t ∧ n = Numeral.ofDigits t := by
  unfold Numeral.digits? at h
  split at h
  · cases h
  · rename_i hc
    cases h
    simp only [Bool.or_eq_true, Bool.not_eq_true', not_or, Bool.not_eq_false, List.isEmpty_iff] at hc
    exact ⟨⟨hc.1, List.all_eq_true.1 hc.2⟩, rfl⟩

theorem int?_eq_some_iff {t : List Char} {z : Int} : Numeral.int? t = some z ↔ SpellsInt z t := by
  constructor
  · intro h
    obtain ⟨s, r, rfl, hs, e⟩ := sign_cases t
    simp only [Numeral.int?, e] at h
    cases hn : Numeral.digits? r with
    | none =>
      rw [hn] at h
      cases h
    | some n =>
      rw [hn] at h
      obtain ⟨hr, rfl⟩ := digits?_eq_some hn
      obtain rfl | rfl | rfl := hs <;> cases h
      · exact .plain hr
      · exact .plus hr
      · exact .minus hr
  · exact SpellsInt.int?

theorem ofInt?_eq_none_iff {z : Int} : Literal.ofInt? z = none ↔ ∀ v : Int64, v.toInt ≠ z := by
  unfold Literal.ofInt? int32? int64?
  constructor
  · intro h v hv
    have h₁ := Int64.le_toInt v
    have h₂ := Int64.toInt_lt v
    rw [hv] at h₁ h₂
    simp [show -0x8000000000000000 ≤ z ∧ z < 0x8000000000000000 from ⟨h₁, h₂⟩] at h
  · intro h
    have hz : ¬ (-0x8000000000000000 ≤ z ∧ z < 0x8000000000000000) := by
      intro hz
      exact h (.ofInt z) (Int64.toInt_ofInt_of_le hz.1 hz.2)
    have hz' : ¬ (-0x80000000 ≤ z ∧ z < 0x80000000) := by omega
    simp [hz, hz']

theorem bind_ofInt?_eq_none_iff {t : List Char} :
    (Numeral.int? t).bind Literal.ofInt? = none ↔ ¬ ∃ v : Int64, SpellsInt v.toInt t := by
  rw [Option.bind_eq_none_iff]
  constructor
  · rintro h ⟨v, hv⟩
    exact ofInt?_eq_none_iff.1 (h _ hv.int?) v rfl
  · intro h z hz
    apply ofInt?_eq_none_iff.2
    rintro v rfl
    exact h ⟨v, int?_eq_some_iff.1 hz⟩

/-! ## Numbers -/

theorem span_digits {ds r : List Char} (hd : AllDigits ds)
    (hr : ∀ c u, r = c :: u → c.isDigit = false) : (ds ++ r).span Char.isDigit = (ds, r) := by
  rw [List.span_eq_takeWhile_dropWhile, List.takeWhile_append_of_pos hd, List.dropWhile_append_of_pos hd]
  cases r with
  | nil => simp
  | cons c u =>
    have := hr c u rfl
    simp [this]

theorem span_spec (r : List Char) :
    ∃ ds u, r = ds ++ u ∧ AllDigits ds ∧ r.span Char.isDigit = (ds, u) := by
  refine ⟨r.takeWhile Char.isDigit, r.dropWhile Char.isDigit,
    (List.takeWhile_append_dropWhile ..).symm, ?_, List.span_eq_takeWhile_dropWhile ..⟩
  intro c hc
  exact List.mem_takeWhile_imp hc

theorem fraction_spec (r : List Char) :
    ∃ f u, r = f ++ u ∧ IsFraction f ∧ Numeral.fraction r = (f.drop 1, u) := by
  unfold Numeral.fraction
  split
  · rename_i r
    obtain ⟨ds, u, rfl, hd, e⟩ := span_spec r
    exact ⟨'.' :: ds, u, rfl, .inr ⟨ds, hd, rfl⟩, e⟩
  · exact ⟨[], r, rfl, .inl rfl, rfl⟩

theorem isSome_exponent?_iff {x : List Char} : (Numeral.exponent? x).isSome = true ↔ IsExponent x := by
  constructor
  · intro h
    cases x with
    | nil => exact .inl rfl
    | cons c r =>
      by_cases hc : (c == 'e' || c == 'E') = true
      · simp only [Numeral.exponent?, hc, if_true] at h
        obtain ⟨z, hz⟩ := Option.isSome_iff_exists.1 h
        exact .inr ⟨c, z, r, by simpa using hc, int?_eq_some_iff.1 hz, rfl⟩
      · simp [Numeral.exponent?, hc] at h
  · rintro (rfl | ⟨e, z, t, he, ht, rfl⟩)
    · rfl
    · have : (e == 'e' || e == 'E') = true := by simpa using he
      simp [Numeral.exponent?, this, ht.int?]

theorem IsExponent.head {x : List Char} (h : IsExponent x) :
    ∀ c u, x = c :: u → c = 'e' ∨ c = 'E' := by
  rintro c u rfl
  obtain h | ⟨e, z, t, he, -, h⟩ := h
  · cases h
  · cases h
    exact he

theorem not_digit_of_letter {c : Char} (h : c = 'e' ∨ c = 'E') : c.isDigit = false := by
  rcases h with rfl | rfl <;> rfl

theorem fraction_append {f x : List Char} (hf : IsFraction f)
    (hx : ∀ c u, x = c :: u → c = 'e' ∨ c = 'E') : Numeral.fraction (f ++ x) = (f.drop 1, x) := by
  obtain rfl | ⟨ds, hd, rfl⟩ := hf
  · cases x with
    | nil => rfl
    | cons c u => rcases hx c u rfl with rfl | rfl <;> rfl
  · exact span_digits hd fun c u e => not_digit_of_letter (hx c u e)

theorem isEmpty_eq_false_iff_any {ds : List Char} (h : AllDigits ds) :
    ds.isEmpty = false ↔ ds.any Char.isDigit = true := by
  cases ds with
  | nil => simp
  | cons c r => simp [h c List.mem_cons_self]

theorem IsFraction.any_drop {f : List Char} (h : IsFraction f) :
    (f.drop 1).isEmpty = false ↔ f.any Char.isDigit = true := by
  obtain rfl | ⟨ds, hd, rfl⟩ := h
  · simp
  · have : Char.isDigit '.' = false := rfl
    rw [List.drop_one, List.tail_cons, isEmpty_eq_false_iff_any hd, List.any_cons, this, Bool.false_or]

theorem any_digit_iff {ds f : List Char} (hd : AllDigits ds) (hf : IsFraction f) :
    (ds.isEmpty && (f.drop 1).isEmpty) = false ↔ (ds ++ f).any Char.isDigit = true := by
  rw [List.any_append, Bool.or_eq_true, ← isEmpty_eq_false_iff_any hd, ← hf.any_drop,
    Bool.and_eq_false_iff]

theorem sign_append {s r : List Char} (hs : IsSign s) (hr : ∀ c u, r = c :: u → c ≠ '+' ∧ c ≠ '-') :
    Numeral.sign (s ++ r) = (s == ['-'], r) := by
  obtain rfl | rfl | rfl := hs
  · unfold Numeral.sign
    split
    · rename_i e
      exact absurd rfl (hr _ _ e).2
    · rename_i e
      exact absurd rfl (hr _ _ e).1
    · rfl
  · rfl
  · rfl

theorem head_of_mantissa {ds f x : List Char} (hd : AllDigits ds) (hf : IsFraction f)
    (h : (ds ++ f).any Char.isDigit = true) :
    ∃ c u, ds ++ (f ++ x) = c :: u ∧ (c.isDigit = true ∨ c = '.') := by
  cases ds with
  | cons c ds => exact ⟨c, _, rfl, .inl (hd c List.mem_cons_self)⟩
  | nil =>
    obtain rfl | ⟨fs, -, rfl⟩ := hf
    · cases h
    · exact ⟨'.', _, rfl, .inr rfl⟩

theorem ne_sign_of_head {c : Char} (h : c.isDigit = true ∨ c = '.') : c ≠ '+' ∧ c ≠ '-' := by
  constructor
  · rintro rfl
    simp at h
  · rintro rfl
    simp at h

/-- The parts of a number are read as they were written, be the exponent whole or not. -/
theorem read?_append {s ds f x : List Char} (hs : IsSign s) (hd : AllDigits ds) (hf : IsFraction f)
    (hx : ∀ c u, x = c :: u → c = 'e' ∨ c = 'E') (ha : (ds ++ f).any Char.isDigit = true) :
    Numeral.read? (s ++ (ds ++ (f ++ x))) = (Numeral.exponent? x).map fun e =>
      ⟨s == ['-'], Numeral.ofDigits (ds ++ f.drop 1), e - (f.drop 1).length⟩ := by
  have e₁ : Numeral.sign (s ++ (ds ++ (f ++ x))) = (s == ['-'], ds ++ (f ++ x)) := by
    apply sign_append hs
    intro c u e
    obtain ⟨c', u', e', h⟩ := head_of_mantissa (x := x) hd hf ha
    rw [e'] at e
    cases e
    exact ne_sign_of_head h
  have e₂ : (ds ++ (f ++ x)).span Char.isDigit = (ds, f ++ x) := by
    apply span_digits hd
    intro c u e
    obtain rfl | ⟨fs, -, rfl⟩ := hf
    · exact not_digit_of_letter (hx c u e)
    · cases e
      rfl
  have hne := (any_digit_iff hd hf).2 ha
  simp only [Numeral.read?, e₁, e₂, fraction_append hf hx, hne, Bool.false_eq_true, if_false]

theorem isSome_read?_iff {t : List Char} : (Numeral.read? t).isSome = true ↔ SpellsNumber t := by
  constructor
  · intro h
    obtain ⟨s, r, rfl, hs, e₁⟩ := sign_cases t
    obtain ⟨ds, u, rfl, hd, e₂⟩ := span_spec r
    obtain ⟨f, x, rfl, hf, e₃⟩ := fraction_spec u
    simp only [Numeral.read?, e₁, e₂, e₃] at h
    split at h
    · cases h
    · rename_i hne
      refine ⟨s, ds, f, x, rfl, hs, hd, hf, ?_, (any_digit_iff hd hf).1 (by simpa using hne)⟩
      apply isSome_exponent?_iff.1
      simpa using h
  · rintro ⟨s, ds, f, x, rfl, hs, hd, hf, hx, ha⟩
    rw [read?_append hs hd hf hx.head ha, Option.isSome_map]
    exact isSome_exponent?_iff.2 hx

/-! ## Numbers as operands -/

theorem SpellsNumber.startsNumber {t : List Char} (h : SpellsNumber t) :
    ∃ c r, t = c :: r ∧ (c.isDigit || c == '+' || c == '-' || c == '.') = true ∧
      t.any Char.isDigit = true := by
  obtain ⟨s, ds, f, x, rfl, hs, hd, hf, -, ha⟩ := h
  have hany : (s ++ (ds ++ (f ++ x))).any Char.isDigit = true := by
    rw [← List.append_assoc ds, List.any_append, List.any_append, ha]
    simp
  obtain ⟨c, u, e, hc⟩ := head_of_mantissa (x := x) hd hf ha
  rw [e] at hany ⊢
  obtain rfl | rfl | rfl := hs
  · refine ⟨c, u, rfl, ?_, hany⟩
    rcases hc with hc | rfl <;> simp_all
  · exact ⟨'+', c :: u, rfl, rfl, hany⟩
  · exact ⟨'-', c :: u, rfl, rfl, hany⟩

theorem number?_error_iff {t : List Char} :
    (∃ f, Literal.number? t = some (.error f)) ↔ OutOfRange t := by
  constructor
  · rintro ⟨f, h⟩
    cases t with
    | nil => cases h
    | cons c r =>
      simp only [Literal.number?] at h
      split at h
      · cases h
      obtain ⟨n, hn, h⟩ := Option.map_eq_some_iff.1 h
      split at h
      · cases h
      rename_i hp
      refine ⟨isSome_read?_iff.1 (by rw [hn]; rfl), ?_, ?_⟩
      · rwa [List.contains_iff_mem] at hp
      · apply bind_ofInt?_eq_none_iff.1
        cases hb : (Numeral.int? (c :: r)).bind Literal.ofInt? with
        | none => rfl
        | some l =>
          rw [hb] at h
          cases h
  · rintro ⟨hn, hp, hv⟩
    obtain ⟨n, hr⟩ := Option.isSome_iff_exists.1 (isSome_read?_iff.2 hn)
    obtain ⟨c, r, rfl, hc, ha⟩ := hn.startsNumber
    have hp' : (c :: r).contains '.' = false := by
      rw [← Bool.not_eq_true, List.contains_iff_mem]
      exact hp
    refine ⟨.outOfRange, ?_⟩
    simp only [Literal.number?, hc, ha, Bool.not_true, Bool.or_false, Bool.false_eq_true, if_false, hr,
      Option.map_some, hp', bind_ofInt?_eq_none_iff.2 hv]

def isNumberChar (c : Char) : Bool := c.isDigit || "+-.eE".toList.contains c

theorem SpellsInt.chars {z : Int} {t : List Char} (h : SpellsInt z t) : ∀ c ∈ t, isNumberChar c := by
  intro c hc
  obtain ⟨ds, hd, rfl | rfl | rfl⟩ := h.form
  · simp [isNumberChar, hd.2 c hc]
  · rcases List.mem_cons.1 hc with rfl | hc
    · rfl
    · simp [isNumberChar, hd.2 c hc]
  · rcases List.mem_cons.1 hc with rfl | hc
    · rfl
    · simp [isNumberChar, hd.2 c hc]

theorem SpellsNumber.chars {t : List Char} (h : SpellsNumber t) : ∀ c ∈ t, isNumberChar c := by
  obtain ⟨s, ds, f, x, rfl, hs, hd, hf, hx, -⟩ := h
  intro c hc
  simp only [List.mem_append] at hc
  rcases hc with hc | hc | hc | hc
  · obtain rfl | rfl | rfl := hs <;> simp_all [isNumberChar]
  · simp [isNumberChar, hd c hc]
  · obtain rfl | ⟨ds, hd, rfl⟩ := hf
    · cases hc
    · rcases List.mem_cons.1 hc with rfl | hc
      · rfl
      · simp [isNumberChar, hd c hc]
  · obtain rfl | ⟨e, z, t, he, ht, rfl⟩ := hx
    · cases hc
    · rcases List.mem_cons.1 hc with rfl | hc
      · rcases he with rfl | rfl <;> rfl
      · exact ht.chars c hc

theorem ofInt?_eq_some {z : Int} {l : Literal} (h : Literal.ofInt? z = some l) :
    (∃ v, l = .int v) ∨ ∃ v, l = .long v := by
  unfold Literal.ofInt? at h
  cases h₃₂ : int32? z with
  | some v =>
    rw [h₃₂] at h
    cases h
    exact .inl ⟨v, rfl⟩
  | none =>
    rw [h₃₂, Option.map_none, Option.none_or] at h
    obtain ⟨v, -, rfl⟩ := Option.map_eq_some_iff.1 h
    exact .inr ⟨v, rfl⟩

theorem number?_ok {t : List Char} {l : Literal} (h : Literal.number? t = some (.ok l)) :
    (∃ v, l = .int v) ∨ (∃ v, l = .long v) ∨ ∃ d, l = .float d := by
  unfold Literal.number? at h
  split at h
  · cases h
  split at h
  · cases h
  obtain ⟨n, -, hn⟩ := Option.map_eq_some_iff.1 h
  split at hn
  · cases hn
    exact .inr (.inr ⟨_, rfl⟩)
  split at hn
  · rename_i l' hl
    cases hn
    obtain ⟨z, -, hz⟩ := Option.bind_eq_some_iff.1 hl
    rcases ofInt?_eq_some hz with hi | hi
    · exact .inl hi
    · exact .inr (.inl hi)
  · cases hn

/-- A literal is a number, a quoted text or a truth value. -/
theorem literal_of_ofToken {t : List Char} {l : Literal} (h : Expr.ofToken t = .ok (.literal l)) :
    Literal.number? t = some (.ok l) ∨
      (∃ s, Literal.quoted? t = some s ∧ l = .str (String.ofList s)) ∨ ∃ b, l = .bool b := by
  unfold Expr.ofToken at h
  split at h
  · rename_i r hr
    cases r with
    | error f => cases h
    | ok n =>
      cases h
      exact .inl hr
  split at h
  · rename_i s hs
    cases h
    exact .inr (.inl ⟨s, hs, rfl⟩)
  split at h
  · cases h
    exact .inr (.inr ⟨_, rfl⟩)
  · split at h <;> cases h

end Stencil
