import Mathlib.Data.List.TakeDrop
import Mathlib.Data.List.TakeWhile
import Stencil.Proofs.Expr.Spelling
import Stencil.Expr.Reader

/-!
# Reading what was spelled

`Expr.climb` reads a spelling back. Where the levels are looser than the operators of the spelling
the text is one operand and the climb goes on; at the level of its last operator the cut ends with
that operator and its right operand, and what stands before it is the cut of the left operand.
-/

namespace Stencil

/-! ## Integers -/

section
variable {ds : List Char} (h : IsDigits ds)
include h

theorem IsDigits.span : ds.span Char.isDigit = (ds, []) := by
  rw [List.span_eq_takeWhile_dropWhile, List.takeWhile_eq_self_iff.2 h.2, List.dropWhile_eq_nil_iff.2 h.2]

theorem IsDigits.sign : Numeral.sign ds = (false, ds) := by
  obtain ⟨c, r, rfl⟩ := List.exists_cons_of_ne_nil h.1
  have hc := h.2 c List.mem_cons_self
  unfold Numeral.sign
  split
  · rename_i e; rw [(List.cons.inj e).1] at hc; cases hc
  · rename_i e; rw [(List.cons.inj e).1] at hc; cases hc
  · rfl

theorem IsDigits.digits? : Numeral.digits? ds = some (Numeral.ofDigits ds) := by
  have he : ds.isEmpty = false := by simpa using h.1
  rw [Numeral.digits?, he, List.all_eq_true.2 h.2]
  rfl

end

theorem SpellsInt.sign {z : Int} {t : List Char} (h : SpellsInt z t) :
    ∃ b ds, Numeral.sign t = (b, ds) ∧ IsDigits ds ∧
      z = if b then -(Numeral.ofDigits ds : Int) else Numeral.ofDigits ds := by
  cases h with
  | plain h => exact ⟨_, _, h.sign, h, rfl⟩
  | plus h => exact ⟨_, _, rfl, h, rfl⟩
  | minus h => exact ⟨_, _, rfl, h, rfl⟩

theorem SpellsInt.int? {z : Int} {t : List Char} (h : SpellsInt z t) : Numeral.int? t = some z := by
  obtain ⟨b, ds, hs, hd, rfl⟩ := h.sign
  simp only [Numeral.int?, hs, hd.digits?]
  rfl

theorem SpellsInt.read? {z : Int} {t : List Char} (h : SpellsInt z t) :
    ∃ n, Numeral.read? t = some n := by
  obtain ⟨b, ds, hs, hd, -⟩ := h.sign
  have he : ds.isEmpty = false := by simpa using hd.1
  simp only [Numeral.read?, hs, hd.span, Numeral.fraction, he, Bool.false_and, Bool.false_eq_true,
    if_false, Numeral.exponent?, Option.map_some]
  exact ⟨_, rfl⟩

theorem IsDigits.no_point {ds : List Char} (h : IsDigits ds) : '.' ∉ ds := fun hm => by
  have := h.2 '.' hm
  cases this

theorem SpellsInt.no_point {z : Int} {t : List Char} (h : SpellsInt z t) : t.contains '.' = false := by
  rw [← Bool.not_eq_true, List.contains_iff_mem]
  cases h with
  | plain h => exact h.no_point
  | plus h => simp [h.no_point]
  | minus h => simp [h.no_point]

/-- A number starts with a digit or a sign and has a digit. -/
theorem SpellsInt.startsNumber {z : Int} {t : List Char} (h : SpellsInt z t) :
    ∃ c r, t = c :: r ∧ (c.isDigit || c == '+' || c == '-' || c == '.') = true ∧
      t.any Char.isDigit = true := by
  have hd : ∀ {ds}, IsDigits ds → ∃ c r, ds = c :: r ∧ c.isDigit = true := by
    intro ds h
    obtain ⟨c, r, rfl⟩ := List.exists_cons_of_ne_nil h.1
    exact ⟨c, r, rfl, h.2 c List.mem_cons_self⟩
  cases h with
  | plain h => obtain ⟨c, r, rfl, hc⟩ := hd h; exact ⟨c, r, rfl, by simp [hc], by simp [hc]⟩
  | plus h => obtain ⟨c, r, rfl, hc⟩ := hd h; exact ⟨_, _, rfl, by decide, by simp [hc]⟩
  | minus h => obtain ⟨c, r, rfl, hc⟩ := hd h; exact ⟨_, _, rfl, by decide, by simp [hc]⟩

theorem SpellsInt.number?_eq {z : Int} {t : List Char} (h : SpellsInt z t) :
    Literal.number? t = some (match Literal.ofInt? z with
      | some l => .ok l
      | none => .error .outOfRange) := by
  obtain ⟨c, r, rfl, hc, ha⟩ := h.startsNumber
  obtain ⟨n, hn⟩ := h.read?
  cases hl : Literal.ofInt? z <;>
    simp only [Literal.number?, hc, ha, Bool.not_true, Bool.or_false, Bool.false_eq_true, if_false, hn,
      Option.map_some, h.no_point, h.int?, Option.bind_some, hl]

theorem SpellsInt.number? {z : Int} {t : List Char} (h : SpellsInt z t) {l : Literal}
    (hl : Literal.ofInt? z = some l) : Literal.number? t = some (.ok l) := by
  rw [h.number?_eq, hl]

theorem ofInt?_int32 (v : Int32) : Literal.ofInt? v.toInt = some (.int v) := by
  rw [Literal.ofInt?, int32?_toInt]
  rfl

theorem ofInt?_int64 {v : Int64} (h : v.toInt < -0x80000000 ∨ 0x80000000 ≤ v.toInt) :
    Literal.ofInt? v.toInt = some (.long v) := by
  have hn : int32? v.toInt = none := if_neg (by omega)
  rw [Literal.ofInt?, hn, int64?_toInt]
  rfl

/-! ## Other leaves -/

theorem number?_eq_none {c : Char} (h : (c.isDigit || c == '+' || c == '-' || c == '.') = false)
    (t : List Char) : Literal.number? (c :: t) = none := by
  simp only [Literal.number?, h, Bool.not_false, Bool.true_or, if_true]

theorem quoted?_eq_none {c : Char} (h : Scan.isQuote c = false) (t : List Char) :
    Literal.quoted? (c :: t) = none := by
  simp [Literal.quoted?, h]

theorem startsNumber_of_letter {c : Char} (h : (c.isAlpha || c == '_') = true) :
    (c.isDigit || c == '+' || c == '-' || c == '.') = false := by
  have h₁ : c ≠ '+' := by rintro rfl; cases h
  have h₂ : c ≠ '-' := by rintro rfl; cases h
  have h₃ : c ≠ '.' := by rintro rfl; cases h
  have h₄ : c.isDigit = false := by
    cases hd : c.isDigit with
    | false => rfl
    | true =>
      rw [isDigit_iff] at hd
      rw [Bool.or_eq_true, beq_iff_eq, isAlpha_iff, isUpper_iff, isLower_iff] at h
      rcases h with (h | h) | rfl
      · omega
      · omega
      · exact absurd hd.2 (by decide)
  simp [h₁, h₂, h₃, h₄]

theorem isQuote_of_nameChar {c : Char} (h : isNameChar c) : Scan.isQuote c = false := by
  simp [Scan.isQuote, ne_of_nameChar h (d := '\'') rfl, ne_of_nameChar h (d := '"') rfl]

theorem isNameChar_of_letter {c : Char} (h : (c.isAlpha || c == '_') = true) : isNameChar c = true := by
  rw [Bool.or_eq_true, beq_iff_eq] at h
  rcases h with h | rfl
  · simp [isNameChar, Char.isAlphanum, h]
  · rfl

theorem ofToken_of_letter {c : Char} (h : (c.isAlpha || c == '_') = true) (t : List Char) :
    Expr.ofToken (c :: t) =
      match Literal.truth? (c :: t) with
      | some b => .ok (.literal (.bool b))
      | none => .ok (if isIdentifier (c :: t) then .identifier (String.ofList (c :: t))
          else .raw (String.ofList (c :: t))) := by
  rw [Expr.ofToken, number?_eq_none (startsNumber_of_letter h),
    quoted?_eq_none (isQuote_of_nameChar (isNameChar_of_letter h))]
  cases Literal.truth? (c :: t) with
  | some b => rfl
  | none =>
    simp only
    split <;> rfl

theorem truth?_of_not_word {t : List Char} (h : ¬ IsWord "true" t) (h' : ¬ IsWord "false" t) :
    Literal.truth? t = none := by
  unfold IsWord at h h'
  simp only [Literal.truth?, if_neg h, if_neg h']

theorem letter_of_toLower {c : Char} (h : c.toLower.isLower) : (c.isAlpha || c == '_') = true := by
  unfold Char.toLower at h
  split at h
  · rename_i hu
    rw [isAlpha_iff.2 (.inl (isUpper_iff.2 hu)), Bool.true_or]
  · rw [isAlpha_iff.2 (.inr h), Bool.true_or]

theorem IsWord.head {w : String} {t : List Char} (h : IsWord w t) {d : Char} {ds : List Char}
    (hw : w.toList = d :: ds) (hd : d.isLower) :
    ∃ c r, t = c :: r ∧ (c.isAlpha || c == '_') = true := by
  unfold IsWord at h
  rw [hw] at h
  obtain ⟨c, r, rfl, hc, -⟩ := List.map_eq_cons_iff.1 h
  exact ⟨c, r, rfl, letter_of_toLower (hc ▸ hd)⟩

theorem quoted?_inQuotes {q : Char} (hq : Scan.isQuote q) (s : List Char) :
    Literal.quoted? (inQuotes q s) = some s := by
  simp [Literal.quoted?, inQuotes, hq]

theorem startsNumber_of_quote {q : Char} (hq : Scan.isQuote q) :
    (q.isDigit || q == '+' || q == '-' || q == '.') = false := by
  have : q = '\'' ∨ q = '"' := by simpa [Scan.isQuote] using hq
  rcases this with rfl | rfl <;> decide

theorem SpellsLeaf.ofToken {e : Expr} {t : List Char} (h : SpellsLeaf e t) :
    Expr.ofToken t = .ok e := by
  cases h with
  | @identifier name hi ht hf =>
    obtain ⟨c, r, hc⟩ := List.exists_cons_of_ne_nil (l := name.toList) fun e => by rw [e] at hi; cases hi
    have hl : (c.isAlpha || c == '_') = true := by
      rw [hc] at hi
      exact (Bool.and_eq_true_iff.1 hi).1
    have he := ofToken_of_letter hl r
    rw [← hc, truth?_of_not_word ht hf] at he
    rw [he]
    simp only [hi, if_true, String.ofList_toList]
  | int hz => rw [Expr.ofToken, hz.number? (ofInt?_int32 _)]; rfl
  | long hv hz => rw [Expr.ofToken, hz.number? (ofInt?_int64 hv)]; rfl
  | yes hw =>
    obtain ⟨c, r, rfl, hl⟩ := hw.head rfl rfl
    have : Literal.truth? (c :: r) = some true := if_pos hw
    rw [ofToken_of_letter hl, this]
  | no hw =>
    obtain ⟨c, r, rfl, hl⟩ := hw.head rfl rfl
    have hn : ¬ IsWord "true" (c :: r) := fun hw' => by
      have : "true".toList = "false".toList := hw'.symm.trans hw
      exact absurd this (by decide)
    have : Literal.truth? (c :: r) = some false := by
      unfold IsWord at hn hw
      simp only [Literal.truth?, if_neg hn, if_pos hw]
    rw [ofToken_of_letter hl, this]
  | @str s q hq hs =>
    rw [Expr.ofToken, inQuotes, number?_eq_none (startsNumber_of_quote hq), ← inQuotes,
      quoted?_inQuotes hq]
    simp only [String.ofList_toList]

/-! ## Joining a cut -/

namespace Cut

variable (rd : List Char → Except Fault Expr)

def join1 (left : Expr) (p : Operator × List Char) : Except Fault Expr :=
  return .binary left p.1 (← rd p.2)

/-- Joins the operands from the left; `f` makes the first tree of the first operand. -/
def readWith (f : Expr → Expr) (k : Cut) : Except Fault Expr := do
  k.tail.foldlM (join1 rd) (f (← rd k.head))

def read (k : Cut) : Except Fault Expr := readWith rd id k

@[simp] theorem read_lone (t : List Char) : read rd ⟨t, []⟩ = rd t := by
  simp only [read, readWith]
  cases rd t <;> rfl

theorem readWith_cons (f : Expr → Expr) (h : List Char) (op : Operator) (t : List Char)
    (r : List (Operator × List Char)) :
    readWith rd f ⟨h, (op, t) :: r⟩ =
      (rd h).bind fun e => readWith rd (.binary (f e) op) ⟨t, r⟩ := by
  cases hh : rd h with
  | error x => simp [readWith, hh, bind, Except.bind]
  | ok e =>
    cases ht : rd t with
    | error x => simp [readWith, join1, hh, ht, bind, Except.bind]
    | ok e' => simp [readWith, join1, hh, ht, bind, Except.bind, pure, Except.pure]

/-- White space behind the last operand of the first cut makes no difference. -/
theorem readWith_append {u : List Char} (hu : ∀ x, rd (x ++ u) = rd x)
    (l : List (Operator × List Char)) (f : Expr → Expr) (k : Cut) :
    readWith rd f (k.append ⟨u, l⟩) = (readWith rd f k).bind (l.foldlM (join1 rd)) := by
  obtain ⟨h, r⟩ := k
  induction r generalizing f h with
  | nil =>
    rw [append_lone]
    simp only [readWith, hu]
    cases rd h <;> rfl
  | cons p r ih =>
    obtain ⟨op, t⟩ := p
    rw [append_cons, readWith_cons, readWith_cons]
    cases rd h with
    | error x => rfl
    | ok e => exact ih _ t

end Cut

namespace Expr

/-- What reads the text in brackets when they may nest `n` deep. -/
def inside : Nat → List Char → Except Fault Expr
  | 0 => fun _ => .error .tooDeep
  | n + 1 => ofNested n

theorem ofNested_eq (n : Nat) : ofNested n = climb (inside n) levels := by
  cases n <;> rfl

variable {inner : List Char → Except Fault Expr}

theorem climb_congr {x y : List Char} (h : Text.trim x = Text.trim y) (ls : List Level) :
    climb inner ls x = climb inner ls y := by
  cases ls with
  | nil => simp only [climb, h]
  | cons ops ls => simp only [climb, h]

theorem climb_cons {x : List Char} (h : Balanced (Text.trim x)) (ops : Level) (ls : List Level) :
    climb inner (ops :: ls) x = (cut ops (marked (Text.trim x))).read (climb inner ls) := by
  simp only [climb, h.marks, zip_map_marked]
  rfl

theorem cut_eq_cutFrom {ops : Level} {t : List Char} (h : IsOperand t) :
    cut ops (marked t) = cutFrom ops true 0 (marked t) := by
  have hat := h.operatorAt_marked ops []
  rw [List.append_nil] at hat
  cases hm : marked t with
  | nil => rfl
  | cons p m =>
    rw [hm] at hat
    rw [cutFrom_of_none hat]
    rfl

theorem climb_of_solid {x t : List Char} (hx : Text.trim x = t) (ht : IsOperand t)
    (pre post : List Level) (hs : ∀ ops ∈ pre, Solid ops true (marked t)) :
    climb inner (pre ++ post) x = climb inner post x := by
  induction pre with
  | nil => rfl
  | cons ops pre ih =>
    have hb : Balanced (Text.trim x) := hx ▸ ht.balanced
    rw [List.cons_append, climb_cons hb, hx, cut_eq_cutFrom ht, hs ops List.mem_cons_self, marked,
      map_fst_markedFrom, Cut.read_lone, ← ih fun o ho => hs o (List.mem_cons_of_mem _ ho)]
    exact climb_congr (by rw [hx, ht.tight.trim]) _

end Expr

/-! ## Levels -/

theorem Operator.rank_lt (op : Operator) : op.rank < levels.length := by cases op <;> decide

/-- The rank of an operator is the place of its level. -/
theorem rank_of_mem_level {j : Nat} {ops : Level} (h : levels[j]? = some ops) {o : Operator}
    (ho : o ∈ ops) : o.rank = j := by
  have hall : ∀ j < levels.length, ∀ o ∈ levels.getD j [], o.rank = j := by decide
  obtain ⟨hj, -⟩ := List.getElem?_eq_some_iff.1 h
  apply hall j hj
  rw [List.getD_eq_getElem?_getD, h]
  exact ho

/-- The operators before a level bind more loosely than those of it. -/
theorem rank_lt_of_mem_take {i : Nat} {ops : Level} (h : ops ∈ levels.take i) {o : Operator}
    (ho : o ∈ ops) : o.rank < i := by
  obtain ⟨j, hj, rfl⟩ := List.mem_iff_getElem.1 h
  rw [List.length_take] at hj
  have hl : j < levels.length := by omega
  rw [List.getElem_take] at ho
  have := rank_of_mem_level (List.getElem?_eq_getElem hl) ho
  omega

theorem levels_drop_rank (op : Operator) :
    ∃ ops, levels.drop op.rank = ops :: levels.drop (op.rank + 1) ∧ (∀ o ∈ ops, o.rank = op.rank) ∧
      ∀ m, operatorAt ops false (op.chars.map (·, true) ++ m) = some op := by
  cases op <;> exact ⟨_, rfl, by decide, fun m => rfl⟩

/-! ## Reading spellings -/

theorem levels_drop_split {j i : Nat} (hj : j ≤ i) (hi : i ≤ levels.length) :
    levels.drop j = (levels.take i).drop j ++ levels.drop i := by
  conv_lhs => rw [← List.take_append_drop i levels]
  rw [List.drop_append_of_le_length]
  rw [List.length_take]
  omega

theorem cutFrom_binary {n : Nat} {op : Operator} {l r : Expr} {s t u v : List Char} {ops : Level}
    (hs : Spells n op.rank l s) (hu : Gap u) (hv : Gap v) (ht : Spells n (op.rank + 1) r t)
    (hops : ∀ o ∈ ops, o.rank = op.rank)
    (hat : ∀ m, operatorAt ops false (op.chars.map (·, true) ++ m) = some op) :
    cutFrom ops true 0 (marked (s ++ (u ++ (op.chars ++ (v ++ t))))) =
      (cutFrom ops true 0 (marked s)).append ⟨u, [(op, v ++ t)]⟩ := by
  have hright : Solid ops true (v.map (·, true) ++ marked t) := by
    refine (hv.solid ops true).append hv.seam ?_
    rw [hv.signs]
    exact ht.solid fun o ho => Nat.lt_succ_of_le (Nat.le_of_eq (hops o ho))
  rw [marked_between op hs.isOperand.balanced hu hv, cutFrom_append hs.isOperand.seam,
    hs.isOperand.signs_marked, cutFrom_append hu.seam, hu.signs, hu.solid ops false,
    cutFrom_of_some (hat _), hright]
  simp only [Cut.start, Cut.append_lone, List.map_append, map_fst_map, map_fst_marked, List.append_nil]

theorem SpellsLeaf.enclosed {e : Expr} {t : List Char} (h : SpellsLeaf e t) : enclosed t = none := by
  obtain ⟨hne, hn⟩ | ⟨c, ds, hc, -, rfl⟩ | ⟨q, s, hq, -, rfl⟩ := h.form
  · obtain ⟨c, r, rfl⟩ := List.exists_cons_of_ne_nil hne
    exact enclosed_eq_none (ne_of_nameChar (hn c List.mem_cons_self) rfl) r
  · exact enclosed_eq_none (by rcases hc with rfl | rfl <;> decide) ds
  · exact enclosed_eq_none (by rintro rfl; cases hq) _

theorem ofOperand_of_ne_nil {inner : List Char → Except Fault Expr} {t : List Char} (h : t ≠ []) :
    Expr.ofOperand inner t =
      match enclosed t with
      | some body => .ok (match inner body with | .ok e => e | .error _ => .raw (String.ofList t))
      | none => Expr.ofToken t := by
  have he : t.isEmpty = false := by simpa using h
  simp only [Expr.ofOperand, he, Bool.false_eq_true, if_false]
  cases enclosed t with
  | none => rfl
  | some body => cases hb : inner body <;> simp only [hb]

theorem climb_operand {inner : List Char → Except Fault Expr} {t u v : List Char} (ht : IsOperand t)
    (hu : Gap u) (hv : Gap v) {ls : List Level} (hs : ∀ ops ∈ ls, Solid ops true (marked t)) :
    Expr.climb inner ls (u ++ (t ++ v)) =
      match enclosed t with
      | some body => .ok (match inner body with | .ok e => e | .error _ => .raw (String.ofList t))
      | none => Expr.ofToken t := by
  have hx : Text.trim (u ++ (t ++ v)) = t := ht.tight.trim_between hu.blank hv.blank
  have hc : Expr.climb inner (ls ++ []) (u ++ (t ++ v)) = Expr.climb inner [] (u ++ (t ++ v)) :=
    Expr.climb_of_solid hx ht ls [] hs
  rw [List.append_nil] at hc
  rw [hc, Expr.climb, hx, ofOperand_of_ne_nil ht.tight.ne_nil]

/-- The level of the last operator is reached, and its cut is the operands' readings put together. -/
theorem climb_binary {n : Nat} {op : Operator} {l r : Expr} {s t u' v' : List Char}
    (hs : Spells n op.rank l s) (hu' : Gap u') (hv' : Gap v') (ht : Spells n (op.rank + 1) r t)
    (hl : Expr.climb (Expr.inside n) (levels.drop op.rank) s = .ok l)
    (hr : Expr.climb (Expr.inside n) (levels.drop (op.rank + 1)) (v' ++ t) = .ok r)
    {j : Nat} (hj : j ≤ op.rank) {u v : List Char} (hu : Gap u) (hv : Gap v) :
    Expr.climb (Expr.inside n) (levels.drop j) (u ++ ((s ++ (u' ++ (op.chars ++ (v' ++ t)))) ++ v)) =
      .ok (.binary l op r) := by
  have hw : Spells n op.rank (.binary l op r) _ := .binary (Nat.le_refl _) hs hu' hv' ht
  have ho := hw.isOperand
  have hx := ho.tight.trim_between hu.blank hv.blank
  obtain ⟨ops, hops, hrank, hat⟩ := levels_drop_rank op
  have hrd : ∀ x, Expr.climb (Expr.inside n) (levels.drop (op.rank + 1)) (x ++ u') =
      Expr.climb (Expr.inside n) (levels.drop (op.rank + 1)) x := fun x =>
    Expr.climb_congr (Text.trim_append_blank hu'.blank x) _
  -- The cut of the left operand at this level reads as the left operand.
  have hleft : (cutFrom ops true 0 (marked s)).read
      (Expr.climb (Expr.inside n) (levels.drop (op.rank + 1))) = .ok l := by
    rw [hops, Expr.climb_cons (by rw [hs.isOperand.tight.trim]; exact hs.isOperand.balanced),
      hs.isOperand.tight.trim, Expr.cut_eq_cutFrom hs.isOperand] at hl
    exact hl
  rw [levels_drop_split hj (Nat.le_of_lt op.rank_lt),
    Expr.climb_of_solid hx ho _ _ fun o hm =>
      hw.solid fun _ => rank_lt_of_mem_take (List.mem_of_mem_drop hm),
    hops, Expr.climb_cons (by rw [hx]; exact ho.balanced), hx, Expr.cut_eq_cutFrom ho,
    cutFrom_binary hs hu' hv' ht hrank hat, Cut.read, Cut.readWith_append _ hrd, ← Cut.read, hleft]
  simp only [Except.bind, List.foldlM_cons, List.foldlM_nil, Cut.join1, hr]
  rfl

/-- A spelling with gaps around it is read at every level that is loose enough. -/
theorem Spells.climb {n k : Nat} {e : Expr} {t : List Char} (h : Spells n k e t) :
    ∀ j ≤ k, ∀ u v, Gap u → Gap v →
      Expr.climb (Expr.inside n) (levels.drop j) (u ++ (t ++ v)) = .ok e := by
  have no : Gap [] := fun _ h => by cases h
  induction h with
  | @leaf n k e t h =>
    intro j _ u v hu hv
    rw [climb_operand h.isOperand hu hv fun ops _ => h.solid ops, h.enclosed]
    exact h.ofToken
  | @bracket n k e t u' v' hu' hv' h ih =>
    intro j _ u v hu hv
    have hb : Balanced (u' ++ (t ++ v')) := Balanced.gap_append hu' hv' h.isOperand.balanced
    have hs : ∀ ops ∈ levels.drop j, Solid ops true (marked (bracketed (u' ++ (t ++ v')))) :=
      fun ops _ => marked_bracketed hb ▸ solid_of_hidden ops _ _
    have hin : Expr.inside (n + 1) (u' ++ (t ++ v')) = .ok e := by
      rw [Expr.inside, Expr.ofNested_eq]
      exact ih 0 (Nat.zero_le _) u' v' hu' hv'
    rw [climb_operand (isOperand_bracketed hb) hu hv hs, enclosed_bracketed hb]
    simp only [hin]
  | @binary n k op l r s t u' v' hk hs hu' hv' ht ihs iht =>
    intro j hj u v hu hv
    have hl := ihs op.rank (Nat.le_refl _) [] [] no no
    have hr := iht (op.rank + 1) (Nat.le_refl _) v' [] hv' no
    rw [List.nil_append, List.append_nil] at hl
    rw [List.append_nil] at hr
    exact climb_binary hs hu' hv' ht hl hr (Nat.le_trans hj hk) hu hv

/-- A text that spells a tree, with gaps around it, is read as that tree. -/
theorem read_of_spells {e : Expr} {t u v : List Char} (h : Spells 256 0 e t) (hu : Gap u)
    (hv : Gap v) : Reader.binary.read (String.ofList (u ++ (t ++ v))) = e := by
  have hb : Text.allBlank (String.ofList (u ++ (t ++ v))) = false := by
    obtain ⟨c, r, rfl, hc⟩ := h.isOperand.tight.head
    simp [Text.allBlank, hc]
  have hc := h.climb 0 (Nat.le_refl _) u v hu hv
  show Expr.ofText _ = e
  rw [Expr.ofText, hb, Expr.ofNested_eq, String.toList_ofList]
  exact congrArg (Expr.orRaw _) hc

/-- The same operator on both sides of a bracket, signs, gaps, and an operator in a string. -/
theorem read_of_spells_comparison :
    Spells 256 0
      (.binary (.binary (.binary (.identifier "a.b") .sub (.literal (.int (-5)))) .sub
        (.binary (.identifier "c_1") .sub (.literal (.int 2)))) .ge
        (.binary (.literal (.str "x > (y")) .add (.literal (.long 3000000000))))
      "a.b- -5\t-(c_1-02)>= 'x > (y'+3000000000".toList ∧
    Reader.binary.read "\ta.b- -5\t-(c_1-02)>= 'x > (y'+3000000000 " =
      .binary (.binary (.binary (.identifier "a.b") .sub (.literal (.int (-5)))) .sub
        (.binary (.identifier "c_1") .sub (.literal (.int 2)))) .ge
        (.binary (.literal (.str "x > (y")) .add (.literal (.long 3000000000))) := by
  have no : Gap [] := fun _ h => by cases h
  have space : Gap [' '] := fun c h => by rw [List.mem_singleton.1 h]; rfl
  have tab : Gap ['\t'] := fun c h => by rw [List.mem_singleton.1 h]; rfl
  have left : Spells 256 5 (.binary (.identifier "a.b") .sub (.literal (.int (-5)))) _ :=
    .binary (by decide) (.leaf (.identifier (by decide) (by decide) (by decide))) no space
      (.leaf (.int (@SpellsInt.minus ['5'] ⟨by decide, List.all_eq_true.1 rfl⟩)))
  have middle : Spells 256 6 (.binary (.identifier "c_1") .sub (.literal (.int 2))) _ :=
    .bracket no no (.binary (by decide) (.leaf (.identifier (by decide) (by decide) (by decide))) no no
      (.leaf (.int (@SpellsInt.plain ['0', '2'] ⟨by decide, List.all_eq_true.1 rfl⟩))))
  have right : Spells 256 3 (.binary (.literal (.str "x > (y")) .add (.literal (.long 3000000000))) _ :=
    .binary (by decide) (.leaf (.str (q := '\'') rfl (by decide))) no no
      (.leaf (.long (.inr (by decide)) (@SpellsInt.plain "3000000000".toList ⟨by decide, List.all_eq_true.1 rfl⟩)))
  have both : Spells 256 2 (.binary _ .sub _) _ := .binary (by decide) left tab no middle
  have whole : Spells 256 0 (.binary _ .ge _) _ := .binary (by decide) both no space right
  have written : Spells 256 0 _ "a.b- -5\t-(c_1-02)>= 'x > (y'+3000000000".toList := whole
  have hread := read_of_spells written tab space
  rw [show String.ofList (['\t'] ++ ("a.b- -5\t-(c_1-02)>= 'x > (y'+3000000000".toList ++ [' '])) =
    "\ta.b- -5\t-(c_1-02)>= 'x > (y'+3000000000 " from rfl] at hread
  exact ⟨written, hread⟩

end Stencil
