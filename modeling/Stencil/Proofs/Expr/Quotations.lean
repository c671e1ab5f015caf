import Mathlib.Data.List.Induction
import Stencil.Proofs.Expr.Occurrences
import Stencil.Proofs.Expr.Signs

/-!
# Where strings come from

A string is an operand between two quotes of one kind. Nothing but the first and the last character of
the operand is looked at: where an operand begins with one quoted text and ends with another, all
that stands between the outer quotes becomes the string.
-/

namespace Stencil

open Stencil.Expr (Context)

/-- The strings of a tree from left to right; raw text has none. -/
def Expr.strings : Expr → List String
  | binary left _ right => left.strings ++ right.strings
  | literal (.str s) => [s]
  | literal _ | identifier _ | raw _ => []

/-! ## Operands that are read as strings -/

theorem quoted?_eq_some {t s : List Char} (h : Literal.quoted? t = some s) :
    ∃ q, Scan.isQuote q ∧ t = inQuotes q s := by
  cases t with
  | nil => cases h
  | cons q r =>
    by_cases hq : (Scan.isQuote q && r.getLast? == some q) = true
    · simp only [Literal.quoted?, hq, if_true, Option.some.injEq] at h
      rw [Bool.and_eq_true, beq_iff_eq] at hq
      refine ⟨q, hq.1, ?_⟩
      rw [inQuotes, ← h, List.dropLast_append_getLast? q hq.2]
    · simp [Literal.quoted?, hq] at h

/-- The operand is the string between two quotes. -/
def Quotes (t : List Char) (s : String) : Prop := ∃ q, Scan.isQuote q ∧ t = inQuotes q s.toList

theorem quotes_of_ofToken {t : List Char} {s : String}
    (h : Expr.ofToken t = .ok (.literal (.str s))) : Quotes t s := by
  rcases literal_of_ofToken h with hn | ⟨u, hu, e⟩ | ⟨_, e⟩
  · rcases number?_ok hn with ⟨_, e⟩ | ⟨_, e⟩ | ⟨_, e⟩ <;> cases e
  · cases e
    obtain ⟨q, hq, e⟩ := quoted?_eq_some hu
    exact ⟨q, hq, by rwa [String.toList_ofList]⟩
  · cases e

theorem ofOperand_inQuotes (rd : List Char → Except Fault Expr) {q : Char} (hq : Scan.isQuote q)
    (s : List Char) : Expr.ofOperand rd (inQuotes q s) = .ok (.literal (.str (String.ofList s))) := by
  have hb : q ≠ '(' := by
    rintro rfl
    cases hq
  rw [ofOperand_of_ne_nil (by simp [inQuotes]), inQuotes, enclosed_eq_none hb]
  simp only [Expr.ofToken, number?_eq_none (startsNumber_of_quote hq)]
  rw [← inQuotes, quoted?_inQuotes hq]

theorem gathers_strings : Gathers Quotes Expr.strings where
  binary _ _ _ := rfl
  raw _ := rfl
  null := rfl
  token := by
    intro t e h
    rcases Expr.ofToken_cases h with ⟨l, rfl⟩ | ⟨-, rfl⟩ | rfl
    · cases l with
      | str s => exact .whole (quotes_of_ofToken h)
      | _ => exact .nil t
    · exact .nil t
    · exact .nil t

/-! ## Quotes in strings -/

theorem Scan.run_singleton (s : Scan) (c : Char) : s.run [c] = s.step c := by
  rw [run_cons]
  exact Option.bind_fun_some (s.step c)

/-- A quote that is open was opened by the last one of its kind. -/
theorem exists_open_quote {r : List Char} {q : Char} (h : Scan.start.run r = some ⟨0, some q⟩) :
    ∃ m y, r = m ++ q :: y ∧ q ∉ y ∧ Balanced m := by
  induction r using List.reverseRecOn with
  | nil => cases h
  | append_singleton r c ih =>
    rw [Scan.run_append] at h
    obtain ⟨⟨d, quote⟩, hr, hc⟩ := Option.bind_eq_some_iff.1 h
    rw [Scan.run_singleton] at hc
    cases quote with
    | some q' =>
      simp only [Scan.step, Option.some.injEq] at hc
      by_cases e : c = q'
      · rw [if_pos e] at hc
        cases hc
      · rw [if_neg e] at hc
        cases hc
        obtain ⟨m, y, rfl, hy, hm⟩ := ih hr
        refine ⟨m, y ++ [c], by simp, ?_, hm⟩
        rw [List.mem_append, List.mem_singleton, not_or]
        exact ⟨hy, Ne.symm e⟩
    | none =>
      by_cases hq : Scan.isQuote c = true
      · simp only [Scan.step, hq, if_true] at hc
        cases hc
        exact ⟨r, [], rfl, by simp, hr⟩
      · -- No other character opens a quote.
        simp only [Scan.step, hq, Bool.false_eq_true, if_false] at hc
        by_cases ho : c = '('
        · simp [ho] at hc
        · by_cases hcl : c = ')' <;> simp [ho, hcl] at hc

theorem exists_last_quoted {r : List Char} {q : Char} (hq : Scan.isQuote q) (h : Balanced (r ++ [q])) :
    ∃ m y, r ++ [q] = m ++ inQuotes q y ∧ q ∉ y ∧ Balanced m := by
  unfold Balanced at h
  rw [Scan.run_append] at h
  obtain ⟨⟨d, quote⟩, hr, hc⟩ := Option.bind_eq_some_iff.1 h
  rw [Scan.run_singleton] at hc
  cases quote with
  | none =>
    simp only [Scan.step, hq, if_true] at hc
    cases hc
  | some q' =>
    simp only [Scan.step, Option.some.injEq] at hc
    by_cases e : q = q'
    · rw [if_pos e] at hc
      cases hc
      cases e
      obtain ⟨m, y, rfl, hy, hm⟩ := exists_open_quote hr
      exact ⟨m, y, by simp [inQuotes], hy, hm⟩
    · rw [if_neg e] at hc
      cases hc

/-- A balanced operand has a quote of its own kind inside exactly if it begins and ends with two different
quoted texts. -/
theorem mem_iff_two_quoted {q : Char} {s : List Char} (hq : Scan.isQuote q)
    (hb : Balanced (inQuotes q s)) : q ∈ s ↔
      ∃ x m y, q ∉ x ∧ q ∉ y ∧ Nested m ∧ inQuotes q s = inQuotes q x ++ (m ++ inQuotes q y) := by
  constructor
  · intro hs
    obtain ⟨x, r, rfl, hx⟩ := List.eq_append_cons_of_mem hs
    have e : inQuotes q (x ++ q :: r) = inQuotes q x ++ (r ++ [q]) := by simp [inQuotes]
    rw [e, (balanced_inQuotes hq hx).append_iff] at hb
    obtain ⟨m, y, hr, hy, hm⟩ := exists_last_quoted hq hb
    exact ⟨x, m, y, hx, hy, balanced_iff_nested.1 hm, by rw [e, hr]⟩
  · rintro ⟨x, m, y, -, -, -, e⟩
    have e' : inQuotes q x ++ (m ++ inQuotes q y) = inQuotes q (x ++ q :: (m ++ q :: y)) := by
      simp [inQuotes]
    rw [e'] at e
    have hs : s = x ++ q :: (m ++ q :: y) := List.append_cancel_right (List.cons.inj e).2
    rw [hs]
    exact List.mem_append_right _ List.mem_cons_self

/-! ## Leaves -/

theorem OperandAt.leaf {inner : List Char → Except Fault Expr} {ls : List Level} {p o q : List Char}
    (h : OperandAt ls p o q) (hl : ls ⊆ levels) (hb : Balanced (p ++ (o ++ q))) {e : Expr}
    (he : Expr.climb inner ls (p ++ (o ++ q)) = .ok e) :
    ∃ c : Context, ∃ l, Expr.ofOperand inner o = .ok l ∧ e = c.fill l := by
  induction h generalizing e with
  | @alone u o v hu hv ht =>
    rw [Expr.climb, Text.trim_blank_append hu, Text.trim_append_blank hv, ht] at he
    exact ⟨.hole, e, he, rfl⟩
  | @piece ops ls u t v p o q P hu hv ht hc _ ih =>
    have e' := trim_around hu hv ht hc
    have hbt : Balanced t := e' ▸ balanced_trim.2 hb
    rw [Expr.climb_of_balanced hb, e', ← (cutsInto_iff (hl List.mem_cons_self) hbt).1 hc] at he
    obtain ⟨d, l', hd, rfl, -⟩ := Cut.read_fill he
    have hx : Balanced (p ++ (o ++ q)) :=
      hc.balanced_of_mem hbt _ (Place.mem_pieces_fill.2 (.inl rfl))
    obtain ⟨c, l, hol, rfl⟩ := ih (fun _ h => hl (List.mem_cons_of_mem _ h)) hx hd
    exact ⟨d.comp c, l, hol, (Context.fill_comp d c l).symm⟩

/-- Between two quotes of one kind an operand is a string, whatever stands there. -/
theorem Within.string {n : Nat} {p r s : List Char} {q : Char} (h : Within n p (inQuotes q s) r)
    (hq : Scan.isQuote q) {e : Expr} (he : Expr.ofNested n (p ++ (inQuotes q s ++ r)) = .ok e) :
    ∃ c : Context, e = c.fill (.literal (.str (String.ofList s))) := by
  generalize ho : inQuotes q s = o at h he
  induction h generalizing e with
  | operand hop =>
    have hb := Expr.balanced_of_ok he
    rw [Expr.ofNested_eq] at he
    obtain ⟨c, l, hl, rfl⟩ := hop.leaf (List.Subset.refl _) hb he
    rw [← ho, ofOperand_inQuotes _ hq] at hl
    cases hl
    exact ⟨c, rfl⟩
  | inner hop hok _ ih =>
    rw [append_in_brackets] at he
    obtain ⟨c, rfl, -⟩ := hop.exchange_brackets hok he
    obtain ⟨d, rfl⟩ := ih ho hok
    exact ⟨c.comp d, (Context.fill_comp c d _).symm⟩

/-! ## Strings -/

/-- Whatever reader a text is given to, the strings of its tree are operands that begin and end with the
same quote, from left to right and apart from each other. In a balanced text a string has its own quote
inside exactly if the operand begins and ends with two different quoted texts; then it is all that stands
between the outer quotes. Every operand between two quotes of one kind is such a string where the text is
read. -/
theorem strings_exact (kind : ReaderKind) (text : String) :
    (∃ os : List (Occurrence × String),
      os.map Prod.snd = (kind.reader.read text).strings ∧
      os.Pairwise (fun a b => a.1.Precedes b.1) ∧
      ∀ a ∈ os, a.1.text = text.toList ∧ a.1.Free ∧
        ∃ q, Scan.isQuote q ∧ a.1.name = inQuotes q a.2.toList ∧
          (Nested text.toList → (q ∈ a.2.toList ↔ ∃ x m y, q ∉ x ∧ q ∉ y ∧ Nested m ∧
            a.1.name = inQuotes q x ++ (m ++ inQuotes q y)))) ∧
    (∀ (p s r : List Char) (q : Char), text.toList = p ++ (inQuotes q s ++ r) → Scan.isQuote q →
      Within maxNesting p (inQuotes q s) r → ¬ Fails (Expr.ofNested maxNesting text.toList) →
      ∃ c : Context, Reader.binary.read text = c.fill (.literal (.str (String.ofList s)))) ∧
    (∀ (s : List Char) (q : Char), Text.trim text.toList = inQuotes q s → Scan.isQuote q →
      Reader.simple.read text = .literal (.str (String.ofList s))) := by
  refine ⟨?_, ?_, ?_⟩
  · obtain ⟨os, hs, hpw, ho⟩ := kind.drawn_read gathers_strings text
    refine ⟨os, hs, hpw, ?_⟩
    intro a ha
    obtain ⟨ht, hf, q, hq, hn⟩ := ho a ha
    refine ⟨ht, hf, q, hq, hn, ?_⟩
    intro hnest
    have hb : Balanced a.1.name := by
      apply hf.closed
      rw [ht]
      exact hnest.balanced
    rw [hn] at hb ⊢
    exact mem_iff_two_quoted hq hb
  · intro p s r q e hq hw hok
    obtain ⟨t, ht⟩ := not_fails_iff.1 hok
    have hblank : Text.allBlank text = false := by
      have hqb : Text.isBlank q = false := by
        have : q = '\'' ∨ q = '"' := by simpa [Scan.isQuote] using hq
        rcases this with rfl | rfl <;> decide
      simp [Text.allBlank, e, inQuotes, hqb]
    rw [read_of_ok hblank ht]
    rw [e] at ht
    exact hw.string hq ht
  · intro s q e hq
    have hblank : Text.allBlank text = false := by
      rw [Text.allBlank, ← Bool.not_eq_true, ← Text.trim_eq_nil_iff, e]
      simp [inQuotes]
    show Expr.ofWord text = _
    rw [Expr.ofWord, hblank, e, ofOperand_inQuotes _ hq]
    rfl

/-- Two quoted texts behind a comparison, a quoted text on either side of one, and a quote too much. -/
theorem strings_exact_quotes :
    (∃ c : Context, Reader.binary.read "x == 'it' 'is'" = c.fill (.literal (.str "it' 'is"))) ∧
    (∃ os : List (Occurrence × String), os.map Prod.snd = ["a == b", "it' 'is"] ∧
      ∀ a ∈ os, a.1.text = "'a == b' != ('it' 'is')".toList) ∧
    Reader.simple.read "'it's'" = .literal (.str "it's") := by
  refine ⟨?_, ?_, ?_⟩
  · have hsym : ¬ HasSymbol "'it' 'is'".toList := by
      rw [← Reader.hasOperator_iff]
      decide +kernel
    have hoperand : IsOperand (inQuotes '\'' "it' 'is".toList) :=
      ⟨by decide +kernel, ⟨'\'', _, rfl, by decide⟩,
        ⟨'\'' :: "it' 'is".toList, '\'', rfl, by decide, by decide⟩⟩
    have hinert : Inert (inQuotes '\'' "it' 'is".toList) := by
      refine ⟨hoperand, ?_, ?_⟩
      · intro ops sign
        apply solid_of_no_symbol
        rwa [map_fst_marked]
      · intro c top m e
        have htop := congrArg (fun m => m.head?.map Prod.snd) e
        left
        cases htop
        rfl
    have hop : OperandAt levels "x == ".toList (inQuotes '\'' "it' 'is".toList) [] :=
      OperandAt.over [[.or], [.and], [.ge, .le], [.gt, .lt]]
        (by decide +kernel) (by decide +kernel) (by decide +kernel)
        (hinert.operandAt_last "x ".toList .eq (v := [' ']) rfl (by decide +kernel)
          (by decide +kernel) (by decide +kernel) [[.add, .sub], [.mul, .div, .rem]])
    have hok : ¬ Fails (Expr.ofNested maxNesting "x == 'it' 'is'".toList) :=
      not_fails_iff.2 ⟨.binary (.identifier "x") .eq (.literal (.str "it' 'is")), by decide +kernel⟩
    exact (strings_exact .binary "x == 'it' 'is'").2.1 _ _ _ '\'' (by decide +kernel) rfl (.operand hop) hok
  · obtain ⟨os, hs, -, ho⟩ := (strings_exact .standard "'a == b' != ('it' 'is')").1
    refine ⟨os, ?_, fun a ha => (ho a ha).1⟩
    rw [hs]
    decide +kernel
  · exact (strings_exact .simple "'it's'").2.2 "it's".toList '\'' (by decide +kernel) rfl

end Stencil
