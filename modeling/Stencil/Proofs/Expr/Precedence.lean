import Stencil.Proofs.Expr.Operands

/-!
# Precedence

A text without brackets is cut at its loosest operators first, and the operands of one level are
joined from the left. So on the way down a tree the operators only get tighter: on the left none is
looser than the one above, on the right all are tighter. For this the text need not make sense.
-/

namespace Stencil

/-! ## Texts without brackets -/

/-- The quote that is open behind the character. -/
def quoteStep : Option Char → Char → Option Char
  | none, c => if Scan.isQuote c then some c else none
  | some q, c => if c = q then none else some q

def unbracketedFrom : Option Char → List Char → Bool
  | _, [] => true
  | quote, c :: r => (quote.isSome || c != '(' && c != ')') && unbracketedFrom (quoteStep quote c) r

/-- No bracket stands outside quotes. The last quote may be left open. -/
def Unbracketed (t : List Char) : Prop := unbracketedFrom none t = true

instance (t : List Char) : Decidable (Unbracketed t) :=
  inferInstanceAs (Decidable (unbracketedFrom none t = true))

theorem quoteStep_of_step {s s' : Scan} {c : Char} (h : s.step c = some s') :
    quoteStep s.quote c = s'.quote := by
  obtain ⟨d, quote⟩ := s
  cases quote with
  | some q =>
    simp only [Scan.step, Option.some.injEq] at h
    subst h
    by_cases hc : c = q <;> simp [quoteStep, hc]
  | none =>
    simp only [Scan.step] at h
    by_cases hq : Scan.isQuote c = true
    · simp only [hq, if_true, Option.some.injEq] at h
      subst h
      simp [quoteStep, hq]
    · simp only [hq, Bool.false_eq_true, if_false] at h
      have hn : s'.quote = none := by
        split at h
        · cases h
          rfl
        · split at h
          · split at h <;> cases h
            rfl
          · cases h
            rfl
      simp [quoteStep, hq, hn]

theorem foldl_quoteStep {s s' : Scan} {t : List Char} (h : s.run t = some s') :
    t.foldl quoteStep s.quote = s'.quote := by
  induction t generalizing s with
  | nil =>
    cases h
    rfl
  | cons c t ih =>
    rw [Scan.run_cons] at h
    obtain ⟨s₁, h₁, h₂⟩ := Option.bind_eq_some_iff.1 h
    rw [List.foldl_cons, quoteStep_of_step h₁, ih h₂]

theorem unbracketedFrom_append (quote : Option Char) (t u : List Char) :
    unbracketedFrom quote (t ++ u) =
      (unbracketedFrom quote t && unbracketedFrom (t.foldl quoteStep quote) u) := by
  induction t generalizing quote with
  | nil => simp [unbracketedFrom]
  | cons c t ih => simp [unbracketedFrom, ih, Bool.and_assoc]

namespace Unbracketed

theorem between {a x b : List Char} (h : Unbracketed (a ++ (x ++ b))) (ha : Balanced a) :
    Unbracketed x := by
  -- No quote is open behind `a`, so what follows is gone through as from the start.
  have hq : a.foldl quoteStep none = none := foldl_quoteStep ha
  unfold Unbracketed at h ⊢
  rw [unbracketedFrom_append, hq, unbracketedFrom_append] at h
  simp only [Bool.and_eq_true] at h
  exact h.2.1

theorem trim {t : List Char} (h : Unbracketed t) : Unbracketed (Text.trim t) := by
  obtain ⟨u, v, hu, -, e⟩ := Text.exists_trim t
  rw [e] at h
  exact h.between (balanced_of_blank hu)

theorem of_mem_pieces {t : List Char} (h : Unbracketed t) (hb : Balanced t) {ops : Level}
    {x : List Char} (hx : x ∈ (cut ops (marked t)).pieces) : Unbracketed x := by
  obtain ⟨P, -, hj, hl⟩ := Place.exists_of_mem hb hx
  rw [← hj] at h
  exact h.between hl

theorem enclosed {t : List Char} (h : Unbracketed t) : Stencil.enclosed t = none := by
  cases t with
  | nil => rfl
  | cons c r =>
    apply enclosed_eq_none
    rintro rfl
    cases h

end Unbracketed

/-! ## Graded trees -/

namespace Expr

def root? : Expr → Option Operator
  | binary _ op _ => some op
  | _ => none

def nodes : Expr → List (Expr × Operator × Expr)
  | binary l op r => (l, op, r) :: (l.nodes ++ r.nodes)
  | _ => []

/-- The operators have rank `k` or more, and get tighter on the way down. -/
def Graded : Nat → Expr → Prop
  | k, binary l op r => k ≤ op.rank ∧ Graded op.rank l ∧ Graded (op.rank + 1) r
  | _, _ => True

theorem graded_of_leaf {e : Expr} (h : e.root? = none) (k : Nat) : Graded k e := by
  cases e with
  | binary l op r => cases h
  | _ => trivial

namespace Graded

variable {k : Nat} {e : Expr}

theorem mono (h : Graded k e) {j : Nat} (hj : j ≤ k) : Graded j e := by
  cases e with
  | binary l op r => exact ⟨Nat.le_trans hj h.1, h.2⟩
  | _ => trivial

theorem le_root (h : Graded k e) {o : Operator} (ho : e.root? = some o) : k ≤ o.rank := by
  cases e with
  | binary l op r =>
    cases ho
    exact h.1
  | _ => cases ho

theorem of_mem_nodes (h : Graded k e) {l r : Expr} {op : Operator} (hn : (l, op, r) ∈ e.nodes) :
    Graded op.rank l ∧ Graded (op.rank + 1) r := by
  induction e generalizing k with
  | binary l' op' r' ihl ihr =>
    simp only [nodes, List.mem_cons, Prod.mk.injEq, List.mem_append] at hn
    rcases hn with ⟨rfl, rfl, rfl⟩ | hn | hn
    · exact h.2
    · exact ihl h.2.1 hn
    · exact ihr h.2.2 hn
  | _ => cases hn

end Graded

theorem root?_of_ofToken {t : List Char} {e : Expr} (h : ofToken t = .ok e) : e.root? = none := by
  rcases ofToken_cases h with ⟨l, rfl⟩ | ⟨-, rfl⟩ | rfl <;> rfl

end Expr

/-! ## Climbing -/

section
variable {rd : List Char → Except Fault Expr} {j : Nat}

/-- Joining from the left makes every operator of the level a left child of the next one. -/
theorem graded_foldlM {a : List (Operator × List Char)} (ha : ∀ p ∈ a, p.1.rank = j)
    (hrd : ∀ p ∈ a, ∀ r, rd p.2 = .ok r → r.Graded (j + 1)) {l e : Expr} (hl : l.Graded j)
    (h : a.foldlM (Cut.join1 rd) l = .ok e) : e.Graded j := by
  induction a generalizing l with
  | nil =>
    cases h
    exact hl
  | cons p a ih =>
    have hp := ha p List.mem_cons_self
    have hr := hrd p List.mem_cons_self
    rw [List.foldlM_cons] at h
    cases ht : rd p.2 with
    | error f =>
      rw [Cut.join1, ht] at h
      cases h
    | ok r =>
      rw [Cut.join1, ht] at h
      refine ih ?_ ?_ ?_ h
      · intro q hq
        exact ha q (List.mem_cons_of_mem _ hq)
      · intro q hq
        exact hrd q (List.mem_cons_of_mem _ hq)
      · rw [← hp] at hl hr ⊢
        exact ⟨Nat.le_refl _, hl, hr r ht⟩

theorem Cut.graded_read {k : Cut} (hops : ∀ p ∈ k.tail, p.1.rank = j)
    (hrd : ∀ x ∈ k.pieces, ∀ r, rd x = .ok r → r.Graded (j + 1)) {e : Expr} (h : k.read rd = .ok e) :
    e.Graded j := by
  obtain ⟨t, a⟩ := k
  cases ht : rd t with
  | error f =>
    rw [read, readWith, ht] at h
    cases h
  | ok l =>
    rw [read, readWith, ht] at h
    have hl := hrd t List.mem_cons_self l ht
    apply graded_foldlM hops _ (hl.mono (Nat.le_succ j)) h
    intro p hp
    exact hrd p.2 (List.mem_cons_of_mem _ (List.mem_map_of_mem hp))

/-- Read from level `j` on, a text without brackets has operators of rank `j` or more. -/
theorem Unbracketed.graded_climb {inner : List Char → Except Fault Expr} {t : List Char}
    (ht : Unbracketed t) (hb : Balanced t) {e : Expr}
    (h : Expr.climb inner (levels.drop j) t = .ok e) : e.Graded j := by
  -- On the levels that are left, since the operands are read at the next one.
  generalize hls : levels.drop j = ls at h
  induction ls generalizing j t e with
  | nil =>
    apply Expr.graded_of_leaf
    rw [Expr.climb, Expr.ofOperand, ht.trim.enclosed] at h
    split at h
    · cases h
      rfl
    · exact Expr.root?_of_ofToken h
  | cons ops ls ih =>
    have hj : levels[j]? = some ops := by
      rw [← List.head?_drop, hls]
      rfl
    have hd : levels.drop (j + 1) = ls := by
      rw [← List.tail_drop, hls]
      rfl
    rw [Expr.climb_of_balanced hb] at h
    apply Cut.graded_read _ _ h
    · intro p hp
      exact rank_of_mem_level hj (mem_level_of_mem_cut (balanced_trim.2 hb) p hp)
    · intro x hx r hr
      exact ih (ht.trim.of_mem_pieces (balanced_trim.2 hb) hx) (Expr.balanced_of_piece hb hx) hd hr

end

theorem graded_read {text : String} (h : Unbracketed text.toList) :
    (Reader.binary.read text).Graded 0 := by
  show (Expr.ofText text).Graded 0
  unfold Expr.ofText
  split
  · trivial
  · cases hr : Expr.ofNested maxNesting text.toList with
    | error f => trivial
    | ok e =>
      have hb := Expr.balanced_of_ok hr
      rw [Expr.ofNested_eq] at hr
      exact h.graded_climb (j := 0) hb hr

/-- In the tree of a text without brackets every operator binds at most as tightly as its left
operand, and less tightly than its right one. -/
theorem precedence_kept {text : String} (h : Unbracketed text.toList) :
    ∀ l op r, (l, op, r) ∈ (Reader.binary.read text).nodes →
      (∀ o, l.root? = some o → op.rank ≤ o.rank) ∧ ∀ o, r.root? = some o → op.rank < o.rank := by
  intro l op r hn
  obtain ⟨hl, hr⟩ := (graded_read h).of_mem_nodes hn
  constructor
  · intro o ho
    exact hl.le_root ho
  · intro o ho
    exact hr.le_root ho

/-- Signs, a half symbol, a bracket in quotes and an operand left out. -/
theorem precedence_kept_signs :
    Unbracketed "a - -b * 'x)(' - c >= = || d".toList ∧
    (.identifier "a", .sub, .binary (.raw "-b") .mul (.literal (.str "x)("))) ∈
      (Reader.binary.read "a - -b * 'x)(' - c >= = || d").nodes ∧
    Operator.sub.rank < Operator.mul.rank := by
  have h : Unbracketed "a - -b * 'x)(' - c >= = || d".toList := by decide +kernel
  have hn : (.identifier "a", .sub, .binary (.raw "-b") .mul (.literal (.str "x)("))) ∈
      (Reader.binary.read "a - -b * 'x)(' - c >= = || d").nodes := by decide +kernel
  exact ⟨h, hn, (precedence_kept h _ _ _ hn).2 .mul rfl⟩

end Stencil
