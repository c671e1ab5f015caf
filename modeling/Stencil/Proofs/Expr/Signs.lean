import Mathlib.Data.List.Infix
import Stencil.Proofs.Expr.Containment

/-!
# Signs of operands

Before an operand stands nothing, a bracket or an operator, with white space behind it. A plus or
minus there is the sign of the operand if that white space is plain. Only arithmetic operators need
this: the looser ones are cut at first, and what is left of the white space is trimmed.
-/

namespace Stencil

open Stencil.Expr (Context)

/-! ## What stands before an operand -/

/-- What is cut off on the left ends with an operator of the level. -/
theorem Place.left_eq {P : Place} {x : List Char} {ops : Level} (h : ∀ p ∈ (P.fill x).tail, p.1 ∈ ops) :
    P.left = [] ∨ ∃ a op, op ∈ ops ∧ P.left = a ++ op.chars := by
  obtain ⟨b, a⟩ := P
  induction b with
  | nil => exact .inl rfl
  | cons p b ih =>
    obtain ⟨t, op⟩ := p
    rw [fill_cons] at h
    rw [left_cons]
    right
    rcases ih fun p hp => h p (List.mem_cons_of_mem _ hp) with e | ⟨a', op', hop, e⟩
    · exact ⟨t, op, h _ List.mem_cons_self, by rw [e, List.append_nil]⟩
    · exact ⟨t ++ (op.chars ++ a'), op', hop, by rw [e]; simp⟩

/-- Before an operand stands white space, behind an operator if there is one. -/
theorem OperandAt.before {ls : List Level} {p o q : List Char} (h : OperandAt ls p o q) :
    p.all Text.isBlank = true ∨
      ∃ a op u, op ∈ ls.flatten ∧ p = a ++ (op.chars ++ u) ∧ u.all Text.isBlank = true := by
  induction h with
  | alone hu _ _ => exact .inl hu
  | @piece ops ls u t v p o q P hu _ _ hc _ ih =>
    rcases ih with hp | ⟨a, op, w, hop, rfl, hw⟩
    · rcases Place.left_eq hc.mem_level with e | ⟨a, op, hop, e⟩
      · left
        rw [e, List.nil_append, List.all_append, hu, hp]
        rfl
      · exact .inr ⟨u ++ a, op, p, List.mem_append_left _ hop, by rw [e]; simp, hp⟩
    · exact .inr ⟨u ++ (P.left ++ a), op, w, List.mem_append_right _ hop, by simp, hw⟩

/-! ## Signs that fit -/

def Operator.isArithmetic : Operator → Bool
  | .add | .sub | .mul | .div | .rem => true
  | _ => false

/-- From the level of the signs on, all operators are arithmetic ones. -/
theorem isArithmetic_of_suffix {ops : Level} {ls : List Level} (h : ops :: ls <:+ levels) {o : Operator}
    (ho : o ∈ ops) (hs : o.isSign = true) : ∀ op ∈ (ops :: ls).flatten, op.isArithmetic = true := by
  have hall : ∀ l ∈ levels.tails, (l.headD []).any Operator.isSign = true →
      l.flatten.all Operator.isArithmetic = true := by decide
  have hany : ops.any Operator.isSign = true := List.any_eq_true.2 ⟨o, ho, hs⟩
  exact List.all_eq_true.1 (hall (ops :: ls) ((List.mem_tails _ _).2 h) hany)

/-- White space that ends the text behind an arithmetic operator is plain. -/
def SignFits (p : List Char) : Prop :=
  ∀ (a : List Char) (op : Operator) (u : List Char), p = a ++ (op.chars ++ u) →
    op.isArithmetic = true → u.all Text.isBlank = true → Gap u

theorem SignFits.of_suffix {p s : List Char} (h : SignFits p) (hs : s <:+ p) : SignFits s := by
  obtain ⟨r, rfl⟩ := hs
  rintro a op u rfl
  exact h (r ++ a) op u (List.append_assoc r a _).symm

theorem signFits_of_plain {p : List Char} (h : (p.filter Text.isBlank).all isPlainBlank = true) :
    SignFits p := by
  rintro a op u rfl _ hu c hc
  exact List.all_eq_true.1 h c (List.mem_filter.2 ⟨by simp [hc], List.all_eq_true.1 hu c hc⟩)

theorem signPlace_gap (p : List Char) {u : List Char} (h : Gap u) : signPlace (p ++ u) = signPlace p := by
  rw [← foldl_signAfter, ← foldl_signAfter, List.foldl_append]
  have := h.signs (p.foldl signAfter true)
  rwa [signs, List.foldl_map] at this

theorem signPlace_of_suffix {p s : List Char} (h : signPlace p = true) (hs : s <:+ p) :
    signPlace s = true := by
  obtain ⟨r, rfl⟩ := hs
  rw [signPlace, List.reverse_append, List.find?_append] at h
  rw [signPlace]
  cases hf : s.reverse.find? fun c => !isPlainBlank c with
  | none => rfl
  | some c => rwa [hf] at h

/-- Where an operand stands at the level of the signs, a sign is none of its operators. -/
theorem SignFits.signPlace {p o q : List Char} {ops : Level} {ls : List Level} (h : SignFits p)
    (hl : ops :: ls <:+ levels) {op : Operator} (hop : op ∈ ops) (hs : op.isSign = true)
    (ho : OperandAt (ops :: ls) p o q) : signPlace (Text.trimStart p) = true := by
  rcases ho.before with hp | ⟨a, op', u, hmem, rfl, hu⟩
  · rw [Text.trimStart_of_blank hp]
    rfl
  · obtain ⟨v, -, e⟩ := Text.exists_trimStart (a ++ (op'.chars ++ u))
    refine signPlace_of_suffix ?_ ⟨v, e.symm⟩
    have hgap : Gap u := h a op' u rfl (isArithmetic_of_suffix hl hop hs op' hmem) hu
    rw [← List.append_assoc, signPlace_gap _ hgap, signPlace_symbol]

/-- Name characters behind a sign stay together wherever the sign fits. -/
theorem fits_of_signed {c : Char} {r p : List Char} (hc : c = '+' ∨ c = '-') (h : ∀ d ∈ r, isNameChar d)
    (hp : SignFits p) (o : List Char) : Fits levels p o (c :: r) := by
  intro ops ls s q hl hs hop
  refine solid_of_signed hc h ?_
  by_cases hsign : ∃ op ∈ ops, op.isSign = true
  · obtain ⟨op, hmem, hsign⟩ := hsign
    exact .inl ((hp.of_suffix hs).signPlace hl hmem hsign hop)
  · right
    intro op hmem
    by_contra hne
    exact hsign ⟨op, hmem, by simpa using hne⟩

/-! ## Operands in brackets -/

/-- In the text `p ++ o ++ q` the text `o` is an operand, of the text or inside an operand in brackets
that is read. -/
inductive Within : Nat → List Char → List Char → List Char → Prop
  | operand {n : Nat} {p o q : List Char} : OperandAt levels p o q → Within n p o q
  | inner {n : Nat} {p p' o q' q : List Char} {e : Expr} :
      OperandAt levels p (bracketed (p' ++ (o ++ q'))) q →
      Expr.ofNested n (p' ++ (o ++ q')) = .ok e → Within n p' o q' →
      Within (n + 1) (p ++ '(' :: p') o (q' ++ ')' :: q)

theorem Fits.of_suffix {ls : List Level} {p s o o' : List Char} (h : Fits ls p o o') (hs : s <:+ p) :
    Fits ls s o o' :=
  fun ops ls' s' q hl hs' hop => h ops ls' s' q hl (hs'.trans hs) hop

/-- The place of an operand makes one leaf of the tree, whichever operand that fits stands there. -/
theorem Within.replace {n : Nat} {p o q : List Char} (h : Within n p o q) (ho : Inert o) {e : Expr}
    (he : Expr.ofNested n (p ++ (o ++ q)) = .ok e) :
    ∃ c : Context, ∀ t l, IsOperand t → Fits levels p o t → (∀ rd, Expr.ofOperand rd t = .ok l) →
      Expr.ofNested n (p ++ (t ++ q)) = .ok (c.fill l) := by
  induction h generalizing e with
  | @operand n p o q hop =>
    have hb := Expr.balanced_of_ok he
    rw [Expr.ofNested_eq] at he ⊢
    obtain ⟨c, -, -, -, hx⟩ := hop.replace (List.Subset.refl _) ho hb he
    refine ⟨c, fun t l ht hfit hl => ?_⟩
    rw [hx t ht hfit, hl]
    rfl
  | @inner n p p' o q' q b hop hok _ ih =>
    rw [append_in_brackets] at he
    obtain ⟨c, -, hx⟩ := hop.exchange_brackets hok he
    obtain ⟨d, hd⟩ := ih ho hok
    refine ⟨c.comp d, fun t l ht hfit hl => ?_⟩
    have hfit' : Fits levels p' o t :=
      hfit.of_suffix ⟨p ++ ['('], by simp⟩
    rw [append_in_brackets, Context.fill_comp]
    exact hx _ _ (hd t l ht hfit' hl)

end Stencil
