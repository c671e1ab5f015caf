import Mathlib.Logic.Relation
import Stencil.Proofs.Expr.Dispatch

/-!
# Balance of the parts

Where a balanced text is cut, the scan is outside brackets and quotes. So an operand has by itself the
marks that it has in the whole text, and the text in a pair of brackets has marks, too. All that is read
on the way to a tree is such a part, but for the text at the start, and only that one can lack balance.
-/

namespace Stencil

/-! ## Marks of parts -/

@[simp] theorem length_marked (t : List Char) : (marked t).length = t.length := by
  rw [← List.length_map Prod.fst, map_fst_marked]

theorem exists_marks_iff {t : List Char} : (∃ ms, marks t = some ms) ↔ Balanced t := by
  rw [← Option.isSome_iff_exists, ← not_iff_not, Option.not_isSome_iff_eq_none, marks_eq_none_iff]

theorem eq_of_marks {t : List Char} {ms : List Bool} (h : marks t = some ms) :
    Balanced t ∧ t.zip ms = marked t ∧ ms = (marked t).map Prod.snd := by
  have hb : Balanced t := exists_marks_iff.1 ⟨ms, h⟩
  rw [hb.marks] at h
  cases h
  exact ⟨hb, zip_map_marked t, rfl⟩

/-- Behind a balanced text the marks start afresh. -/
theorem marks_between {a x b : List Char} (ha : Balanced a) (hx : Balanced x) {ms : List Bool}
    (h : marks (a ++ (x ++ b)) = some ms) : marks x = some ((ms.drop a.length).take x.length) := by
  obtain ⟨-, -, rfl⟩ := eq_of_marks h
  rw [hx.marks, marked_append ha, marked_append hx, List.map_append, List.map_append,
    List.drop_left' (by simp), List.take_left' (by simp)]

theorem Place.balanced {P : Place} {x : List Char} (h : ∀ y ∈ (P.fill x).pieces, Balanced y) :
    Balanced P.left ∧ Balanced x := by
  constructor
  · apply balanced_left
    intro y hy
    exact h y (mem_pieces_fill.2 (.inr hy))
  · exact h x (mem_pieces_fill.2 (.inl rfl))

theorem marks_of_cut {t : List Char} {ms : List Bool} (h : marks t = some ms) {ops : Level} {P : Place}
    {x : List Char} (hc : cut ops (t.zip ms) = P.fill x) :
    t = P.left ++ (x ++ P.right) ∧ marks x = some ((ms.drop P.left.length).take x.length) := by
  obtain ⟨hb, hz, -⟩ := eq_of_marks h
  rw [hz] at hc
  have hj : (cut ops (marked t)).join = t := join_cut hb
  have hp : ∀ y ∈ (cut ops (marked t)).pieces, Balanced y := balanced_of_mem_pieces hb
  rw [hc] at hj hp
  rw [Place.join_fill] at hj
  rw [← hj] at h
  obtain ⟨hl, hx⟩ := Place.balanced hp
  exact ⟨hj.symm, marks_between hl hx h⟩

/-! ## Texts in brackets -/

theorem enclosed_bracketed_append {s : List Char} (hs : Balanced s) (t : List Char) :
    enclosed (bracketed s ++ t) = if t.isEmpty then some s else none := by
  have e : bracketed s ++ t = '(' :: (s ++ ')' :: t) := by simp [bracketed]
  have hc : closing (Scan.start.lift 1) (')' :: t) = if t.isEmpty then some [] else none := rfl
  rw [e, enclosed]
  show closing (Scan.start.lift 1) (s ++ ')' :: t) = _
  rw [closing_lift_append Nat.one_pos hs, hc]
  split <;> simp

/-- The bracket at the start is closed by the one at the end exactly if the text between them is
balanced. -/
theorem enclosed_eq_some_iff {t u : List Char} : enclosed t = some u ↔ t = bracketed u ∧ Balanced u := by
  constructor
  · intro h
    obtain ⟨r, rfl⟩ : ∃ r, t = '(' :: r := ⟨_, eq_of_enclosed h⟩
    have hn := balanced_iff_nested.1 (balanced_of_enclosed h)
    generalize ht : '(' :: r = t at hn
    cases hn with
    | nil => cases ht
    | flat hc _ =>
      cases ht
      cases hc
    | quote hq _ _ =>
      cases ht
      cases hq
    | @bracket s v hs _ =>
      rw [ht, enclosed_bracketed_append hs.balanced] at h
      cases v with
      | nil =>
        cases h
        exact ⟨List.append_nil _, hs.balanced⟩
      | cons c v => cases h
  · rintro ⟨rfl, hu⟩
    exact enclosed_bracketed hu

/-! ## Faults of balanced texts -/

theorem number?_error {t : List Char} {f : Fault} (h : Literal.number? t = some (.error f)) :
    f = .outOfRange := by
  cases t with
  | nil => cases h
  | cons c r =>
    simp only [Literal.number?] at h
    split at h
    · cases h
    · obtain ⟨n, -, hn⟩ := Option.map_eq_some_iff.1 h
      split at hn
      · cases hn
      · split at hn <;> cases hn
        rfl

theorem ofToken_error {t : List Char} {f : Fault} (h : Expr.ofToken t = .error f) : f = .outOfRange := by
  unfold Expr.ofToken at h
  split at h
  · rename_i r hr
    cases r with
    | ok l => cases h
    | error g =>
      cases h
      exact number?_error hr
  · split at h
    · cases h
    · split at h
      · cases h
      · split at h <;> cases h

theorem ofOperand_error {inner : List Char → Except Fault Expr} {t : List Char} {f : Fault}
    (h : Expr.ofOperand inner t = .error f) : f = .outOfRange := by
  by_cases ht : t = []
  · subst ht
    cases h
  · rw [ofOperand_of_ne_nil ht] at h
    cases he : enclosed t with
    | none =>
      rw [he] at h
      exact ofToken_error h
    | some u =>
      simp only [he] at h
      split at h <;> cases h

theorem Cut.exists_of_read_error {rd : List Char → Except Fault Expr} {k : Cut} {f : Fault}
    (h : k.read rd = .error f) : ∃ x ∈ k.pieces, rd x = .error f := by
  obtain ⟨t, a⟩ := k
  unfold read at h
  generalize id = g at h
  induction a generalizing t g with
  | nil =>
    refine ⟨t, List.mem_cons_self, ?_⟩
    cases ht : rd t with
    | error e =>
      simp only [readWith, ht] at h
      exact h
    | ok l =>
      simp only [readWith, ht] at h
      cases h
  | cons p a ih =>
    obtain ⟨op, y⟩ := p
    rw [readWith_cons] at h
    cases ht : rd t with
    | error e =>
      rw [ht] at h
      cases h
      exact ⟨t, List.mem_cons_self, ht⟩
    | ok l =>
      rw [ht] at h
      obtain ⟨x, hx, hr⟩ := ih y _ h
      exact ⟨x, List.mem_cons_of_mem t hx, hr⟩

/-- Once a text is balanced, or is one operand, only a number can make it fail. -/
theorem climb_error {inner : List Char → Except Fault Expr} {ls : List Level} {t : List Char} {f : Fault}
    (ht : ls = [] ∨ Balanced t) (h : Expr.climb inner ls t = .error f) : f = .outOfRange := by
  induction ls generalizing t with
  | nil => exact ofOperand_error h
  | cons ops ls ih =>
    have hb : Balanced t := ht.resolve_left (List.cons_ne_nil ops ls)
    rw [Expr.climb_of_balanced hb] at h
    obtain ⟨x, hx, hr⟩ := Cut.exists_of_read_error h
    exact ih (.inr (Expr.balanced_of_piece hb hx)) hr

/-! ## The parts that are read -/

/-- A text to be cut at the remaining levels, in which brackets may nest so deep. -/
structure Call where
  nesting : Nat
  remaining : List Level
  text : List Char

namespace Call

def result (c : Call) : Except Fault Expr := Expr.climb (Expr.inside c.nesting) c.remaining c.text

/-- To read a text, its operands of one level are read; where no level remains, the text in its brackets
is read from the first level on. -/
inductive Asks : Call → Call → Prop
  | operand {n : Nat} {ops : Level} {ls : List Level} {t x : List Char} {ms : List Bool} :
      marks (Text.trim t) = some ms → x ∈ (cut ops ((Text.trim t).zip ms)).pieces →
      Asks ⟨n, ops :: ls, t⟩ ⟨n, ls, x⟩
  | inner {n : Nat} {t u : List Char} : enclosed (Text.trim t) = some u →
      Asks ⟨n + 1, [], t⟩ ⟨n, levels, u⟩

/-- Reading the first text comes to the second one. -/
def Reaches : Call → Call → Prop := Relation.ReflTransGen Asks

variable {c d : Call}

theorem Asks.balanced (h : Asks c d) : Balanced d.text := by
  cases h with
  | operand hm hx =>
    obtain ⟨hb, hz, -⟩ := eq_of_marks hm
    rw [hz] at hx
    exact balanced_of_mem_pieces hb _ hx
  | inner hu => exact (enclosed_eq_some_iff.1 hu).2

theorem Reaches.eq_or_balanced (h : Reaches c d) : d = c ∨ Balanced d.text := by
  induction h with
  | refl => exact .inl rfl
  | tail _ hd _ => exact .inr hd.balanced

theorem result_ne_unbalanced (h : c.remaining = [] ∨ Balanced c.text) :
    c.result ≠ .error .unbalanced := by
  intro hr
  cases climb_error h hr

end Call

/-- An operand of a balanced text has the marks that it has in the whole, and the text in a pair of
brackets has marks in any text. So of all that is read on the way to a tree only the whole text can be
found unbalanced, and where it is taken for one operand, nothing can. -/
theorem marks_local (t : List Char) :
    (∀ ms, marks t = some ms → ∀ (ops : Level) (P : Place) (x : List Char),
      cut ops (t.zip ms) = P.fill x → t = P.left ++ (x ++ P.right) ∧
        marks x = some ((ms.drop P.left.length).take x.length)) ∧
    (∀ u, enclosed t = some u → ∃ ms, marks u = some ms) ∧
    (∀ n, Expr.ofNested n t = .error .unbalanced ↔ marks t = none) ∧
    (∀ n c, Call.Reaches ⟨n, levels, t⟩ c → c.result = .error .unbalanced → c = ⟨n, levels, t⟩) ∧
    (∀ n c, Call.Reaches ⟨n, [], t⟩ c → c.result ≠ .error .unbalanced) := by
  refine ⟨fun ms h ops P x hc => marks_of_cut h hc, ?_, ?_, ?_, ?_⟩
  · intro u hu
    exact exists_marks_iff.2 (enclosed_eq_some_iff.1 hu).2
  · intro n
    rw [marks_eq_none_iff]
    constructor
    · intro h hb
      rw [Expr.ofNested_eq] at h
      cases climb_error (.inr hb) h
    · intro h
      exact Expr.ofNested_of_unbalanced h n
  · intro n c h hr
    rcases h.eq_or_balanced with e | hb
    · exact e
    · exact absurd hr (Call.result_ne_unbalanced (.inr hb))
  · intro n c h
    apply Call.result_ne_unbalanced
    rcases h.eq_or_balanced with rfl | hb
    · exact .inl rfl
    · exact .inr hb

/-- An operand in brackets with a bracket in quotes, what it is read by, and a text with a bracket too
much. -/
theorem marks_local_quote :
    marks " (b + ')')".toList = some (true :: List.replicate 9 false) ∧
    (∃ ms, marks "b + ')'".toList = some ms) ∧
    Expr.ofNested 1 "a && b)".toList = .error .unbalanced ∧
    (Call.mk 1 levels.tail "a && (b + ')')".toList).result ≠ .error .unbalanced ∧
    (Call.mk 0 levels "b + ')'".toList).result ≠ .error .unbalanced := by
  have hb : Balanced "a && (b + ')')".toList := by decide +kernel
  have hcut : cut [.and] ("a && (b + ')')".toList.zip ((marked "a && (b + ')')".toList).map Prod.snd)) =
      Place.fill ⟨[("a ".toList, .and)], []⟩ " (b + ')')".toList := by decide +kernel
  refine ⟨?_, ?_, ?_, ?_, ?_⟩
  · rw [((marks_local "a && (b + ')')".toList).1 _ hb.marks _ _ _ hcut).2]
    decide +kernel
  · exact (marks_local "(b + ')')".toList).2.1 _ (by decide +kernel)
  · exact ((marks_local "a && b)".toList).2.2.1 1).2 (by decide +kernel)
  · intro hr
    have hstep : Call.Asks ⟨1, levels, "a && (b + ')')".toList⟩ ⟨1, levels.tail, "a && (b + ')')".toList⟩ :=
      .operand (t := "a && (b + ')')".toList) hb.marks (by decide +kernel)
    have := (marks_local "a && (b + ')')".toList).2.2.2.1 1 _ (.single hstep) hr
    cases this
  · have hstep : Call.Asks ⟨1, [], "(b + ')')".toList⟩ ⟨0, levels, "b + ')'".toList⟩ :=
      .inner (by decide +kernel)
    exact (marks_local "(b + ')')".toList).2.2.2.2 1 _ (.single hstep)

end Stencil
