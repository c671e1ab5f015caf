import Stencil.Proofs.Expr.Operands
import Stencil.Proofs.Expr.Numbers

/-!
# Where failures stay

A text fails when its brackets or quotes do not balance, or when one of its operands is a number
out of range. Failures in brackets go no further: they leave raw text in the place of the bracketed
operand, and the rest of the tree is as it would be with any variable there.
-/

namespace Stencil

open Stencil.Expr (Context)

/-! ## Operands that fail -/

theorem ofToken_fails_iff {t : List Char} : Fails (Expr.ofToken t) ↔ OutOfRange t := by
  rw [← number?_error_iff]
  cases hn : Literal.number? t with
  | some r =>
    cases r with
    | error f => simp [Expr.ofToken, hn, Except.map, fails_error]
    | ok l => simp [Expr.ofToken, hn, Except.map, not_fails_ok]
  | none =>
    have hok : ∃ e, Expr.ofToken t = .ok e := by
      simp only [Expr.ofToken, hn]
      cases Literal.quoted? t with
      | some s => exact ⟨_, rfl⟩
      | none =>
        cases Literal.truth? t with
        | some b => exact ⟨_, rfl⟩
        | none => by_cases hi : isIdentifier t = true <;> simp [hi]
    obtain ⟨e, he⟩ := hok
    simp [he, not_fails_ok]

theorem OutOfRange.no_bracket {t : List Char} (h : OutOfRange t) : '(' ∉ t := by
  intro hm
  have := h.1.chars '(' hm
  cases this

theorem OutOfRange.enclosed {t : List Char} (h : OutOfRange t) : enclosed t = none := by
  cases he : Stencil.enclosed t with
  | none => rfl
  | some u =>
    have := h.no_bracket
    rw [eq_of_enclosed he] at this
    exact absurd List.mem_cons_self this

theorem not_outOfRange_nil : ¬ OutOfRange [] := by
  intro h
  obtain ⟨c, r, e, -⟩ := h.1.startsNumber
  cases e

theorem ofOperand_fails_iff {inner : List Char → Except Fault Expr} {t : List Char} :
    Fails (Expr.ofOperand inner t) ↔ OutOfRange t := by
  by_cases ht : t = []
  · subst ht
    exact iff_of_false (not_fails_ok _) not_outOfRange_nil
  · rw [ofOperand_of_ne_nil ht]
    cases he : enclosed t with
    | none => exact ofToken_fails_iff
    | some u =>
      refine iff_of_false (not_fails_ok _) ?_
      intro h
      rw [h.enclosed] at he
      cases he

theorem not_fails_around {inner : List Char → Except Fault Expr} {s : List Char} (hs : Balanced s)
    (u v : List Char) : ¬ Fails (Expr.climb inner [] (u ++ (bracketed s ++ v))) := by
  rw [Expr.climb, Text.trim_append_tight (inert_bracketed hs).tight, ofOperand_fails_iff]
  intro h
  apply h.no_bracket
  simp [bracketed]

/-! ## Texts that fail -/

theorem ofNested_fails_iff {n : Nat} {t : List Char} : Fails (Expr.ofNested n t) ↔
    ¬ Balanced t ∨ ∃ p o q, t = p ++ (o ++ q) ∧ OperandAt levels p o q ∧ OutOfRange o := by
  by_cases hb : Balanced t
  · rw [Expr.ofNested_eq]
    constructor
    · intro h
      obtain ⟨p, o, q, e, hop, ho⟩ := exists_operandAt hb h
      exact .inr ⟨p, o, q, e, hop, ofOperand_fails_iff.1 ho⟩
    · rintro (h | ⟨p, o, q, rfl, hop, ho⟩)
      · exact absurd hb h
      · exact hop.fails (List.Subset.refl _) hb (ofOperand_fails_iff.2 ho)
  · refine iff_of_true ?_ (.inl hb)
    rw [Expr.ofNested_of_unbalanced hb]
    exact fails_error _

/-! ## Brackets whose contents fail -/

/-- In the text `p ++ (s) ++ q` the bracketed `s` is an operand, of the text or inside an operand
in brackets that is read, and `s` fails there. -/
inductive Unread : Nat → List Char → List Char → List Char → Prop
  | operand {n : Nat} {p s q : List Char} : OperandAt levels p (bracketed s) q → Nested s →
      Fails (Expr.inside n s) → Unread n p s q
  | inner {n : Nat} {p p' s q' q : List Char} {e : Expr} :
      OperandAt levels p (bracketed (p' ++ (bracketed s ++ q'))) q →
      Expr.ofNested n (p' ++ (bracketed s ++ q')) = .ok e → Unread n p' s q' →
      Unread (n + 1) (p ++ '(' :: p') s (q' ++ ')' :: q)

theorem ofOperand_bracketed {rd : List Char → Except Fault Expr} {s : List Char} (hs : Balanced s) :
    Expr.ofOperand rd (bracketed s) =
      .ok (match rd s with | .ok e => e | .error _ => .raw (String.ofList (bracketed s))) := by
  have hne : bracketed s ≠ [] := by simp [bracketed]
  cases hr : rd s with
  | ok e => simp only [ofOperand_of_ne_nil hne, enclosed_bracketed hs, hr]
  | error f => simp only [ofOperand_of_ne_nil hne, enclosed_bracketed hs, hr]

theorem ofOperand_identifier {rd : List Char → Except Fault Expr} {name : String}
    (h : SpellsLeaf (.identifier name) name.toList) :
    Expr.ofOperand rd name.toList = .ok (.identifier name) := by
  rw [ofOperand_of_ne_nil h.isOperand.tight.ne_nil, h.enclosed]
  exact h.ofToken

theorem inert_identifier {name : String} (h : isIdentifier name.toList) : Inert name.toList := by
  apply inert_of_nameChars
  · intro e
    rw [e] at h
    cases h
  · exact isNameChar_of_isIdentifier h

/-- What is read in brackets makes one part of the tree, and other contents of the brackets make the
same part. -/
theorem OperandAt.exchange_brackets {n : Nat} {p s q : List Char} {b e : Expr}
    (h : OperandAt levels p (bracketed s) q) (hs : Expr.ofNested n s = .ok b)
    (he : Expr.ofNested (n + 1) (p ++ (bracketed s ++ q)) = .ok e) :
    ∃ c : Context, e = c.fill b ∧ ∀ s' b', Expr.ofNested n s' = .ok b' →
      Expr.ofNested (n + 1) (p ++ (bracketed s' ++ q)) = .ok (c.fill b') := by
  have hread : ∀ {s' b'}, Expr.ofNested n s' = .ok b' →
      Expr.ofOperand (Expr.inside (n + 1)) (bracketed s') = .ok b' := fun hs' => by
    rw [ofOperand_bracketed (Expr.balanced_of_ok hs'), Expr.inside, hs']
  have hb := Expr.balanced_of_ok he
  rw [Expr.ofNested_eq] at he
  obtain ⟨c, l, hl, rfl, hx⟩ :=
    h.exchange (List.Subset.refl _) (inert_bracketed (Expr.balanced_of_ok hs)) hb he
  rw [hread hs] at hl
  cases hl
  refine ⟨c, rfl, fun s' b' hs' => ?_⟩
  rw [Expr.ofNested_eq, hx _ (inert_bracketed (Expr.balanced_of_ok hs')), hread hs']
  rfl

theorem append_in_brackets (p p' y q' q : List Char) :
    p ++ '(' :: p' ++ (y ++ (q' ++ ')' :: q)) = p ++ (bracketed (p' ++ (y ++ q')) ++ q) := by
  simp [bracketed]

theorem Unread.exchange {n : Nat} {p s q : List Char} (h : Unread n p s q) {e : Expr}
    (he : Expr.ofNested n (p ++ (bracketed s ++ q)) = .ok e) :
    ∃ c : Context, e = c.fill (.raw (String.ofList (bracketed s))) ∧
      ∀ name : String, isIdentifier name.toList → ¬ IsWord "true" name.toList →
        ¬ IsWord "false" name.toList →
        Expr.ofNested n (p ++ (name.toList ++ q)) = .ok (c.fill (.identifier name)) := by
  induction h generalizing e with
  | @operand n p s q hop hs hf =>
    have hb := Expr.balanced_of_ok he
    rw [Expr.ofNested_eq] at he ⊢
    obtain ⟨c, l, hl, rfl, hx⟩ :=
      hop.exchange (List.Subset.refl _) (inert_bracketed hs.balanced) hb he
    obtain ⟨f, hf⟩ := hf
    rw [ofOperand_bracketed hs.balanced, hf] at hl
    cases hl
    refine ⟨c, rfl, ?_⟩
    intro name hi ht hfa
    rw [hx _ (inert_identifier hi), ofOperand_identifier (.identifier hi ht hfa)]
    rfl
  | @inner n p p' s q' q b hop hok _ ih =>
    rw [append_in_brackets] at he
    obtain ⟨c, rfl, hx⟩ := hop.exchange_brackets hok he
    obtain ⟨d, rfl, hd⟩ := ih hok
    refine ⟨c.comp d, (Context.fill_comp c d _).symm, ?_⟩
    intro name hi ht hfa
    rw [append_in_brackets, Context.fill_comp]
    exact hx _ _ (hd name hi ht hfa)

theorem Unread.balanced {n : Nat} {p s q : List Char} (h : Unread n p s q) : Balanced s := by
  induction h with
  | operand _ hs _ => exact hs.balanced
  | inner _ _ _ ih => exact ih

theorem read_of_fails {text : String} (h : Fails (Expr.ofNested maxNesting text.toList)) :
    Reader.binary.read text = .raw text := by
  obtain ⟨f, hf⟩ := h
  show Expr.ofText text = .raw text
  unfold Expr.ofText
  by_cases hb : Text.allBlank text = true
  · simp [hb]
  · simp [hb, hf, Expr.orRaw]

theorem read_of_ok {text : String} {e : Expr} (hb : Text.allBlank text = false)
    (h : Expr.ofNested maxNesting text.toList = .ok e) : Reader.binary.read text = e := by
  show Expr.ofText text = e
  simp [Expr.ofText, hb, h, Expr.orRaw]

theorem allBlank_eq_false {text : String} {p o q : List Char} (h : text.toList = p ++ (o ++ q))
    (ho : IsOperand o) : Text.allBlank text = false := by
  obtain ⟨c, r, rfl, hc⟩ := ho.tight.head
  simp [Text.allBlank, h, hc]

/-- A text fails for its own brackets, quotes and operands only, however deeply brackets may nest;
what fails in brackets is one leaf, and the rest of the tree does not depend on it. -/
theorem failure_contained (text : String) :
    (∀ n, Fails (Expr.ofNested n text.toList) ↔ ¬ Nested (Text.trim text.toList) ∨
      ∃ p o q, text.toList = p ++ (o ++ q) ∧ OperandAt levels p o q ∧ OutOfRange o) ∧
    (∀ n p s s' q, text.toList = p ++ (bracketed s ++ q) → Nested p → Nested s → Nested s' →
      (Fails (Expr.ofNested n text.toList) ↔ Fails (Expr.ofNested n (p ++ (bracketed s' ++ q))))) ∧
    (Fails (Expr.ofNested maxNesting text.toList) → Reader.binary.read text = .raw text) ∧
    (¬ Fails (Expr.ofNested maxNesting text.toList) → ∀ p s q,
      text.toList = p ++ (bracketed s ++ q) → Unread maxNesting p s q →
      ∃ c : Context, Reader.binary.read text = c.fill (.raw (String.ofList (bracketed s))) ∧
        ∀ name : String, isIdentifier name.toList → ¬ IsWord "true" name.toList →
          ¬ IsWord "false" name.toList →
          Reader.binary.read (String.ofList (p ++ (name.toList ++ q))) = c.fill (.identifier name)) := by
  refine ⟨?_, ?_, read_of_fails, ?_⟩
  · intro n
    rw [ofNested_fails_iff, ← balanced_iff_nested, balanced_trim]
  · intro n p s s' q e hp hs hs'
    rw [e, Expr.ofNested_eq]
    exact fails_exchange (inert_bracketed hs.balanced) (inert_bracketed hs'.balanced)
      (not_fails_around hs.balanced) (not_fails_around hs'.balanced) hp.balanced
  · intro hok p s q e h
    obtain ⟨t, ht⟩ := not_fails_iff.1 hok
    have ht' := ht
    rw [e] at ht'
    obtain ⟨c, rfl, hc⟩ := h.exchange ht'
    refine ⟨c, read_of_ok (allBlank_eq_false e (isOperand_bracketed h.balanced)) ht, ?_⟩
    intro name hi htr hfa
    have hl := String.toList_ofList (l := p ++ (name.toList ++ q))
    apply read_of_ok (allBlank_eq_false hl (inert_identifier hi).toIsOperand)
    rw [hl]
    exact hc name hi htr hfa

/-- A number out of range in brackets, two deep, and the same number outside of brackets. -/
theorem failure_contained_product :
    (∃ c : Context,
      Reader.binary.read "a && (b + (c * 99999999999999999999))" =
        c.fill (.raw "(c * 99999999999999999999)") ∧
      Reader.binary.read "a && (b + d.e)" = c.fill (.identifier "d.e")) ∧
    (Fails (Expr.ofNested 1 "a && (b + (c * 99999999999999999999))".toList) ↔
      Fails (Expr.ofNested 1 "a && (99999999999999999999)".toList)) ∧
    Reader.binary.read "x + 99999999999999999999" = .raw "x + 99999999999999999999" := by
  have hs : Nested "c * 99999999999999999999".toList := balanced_iff_nested.1 (by decide +kernel)
  have hi := inert_bracketed hs.balanced
  have hsum : OperandAt levels "b + ".toList (bracketed "c * 99999999999999999999".toList) [] :=
    OperandAt.over [[.or], [.and], [.ge, .le], [.gt, .lt], [.eq, .ne]]
      (by decide +kernel) (by decide +kernel) (by decide +kernel)
      (hi.operandAt_last "b ".toList .add (v := [' ']) rfl (by decide +kernel)
        (by decide +kernel) (by decide +kernel) [[.mul, .div, .rem]])
  have hsum' : Nested ("b + ".toList ++ (bracketed "c * 99999999999999999999".toList ++ [])) :=
    balanced_iff_nested.1 (by decide +kernel)
  have hand : OperandAt levels "a && ".toList
      (bracketed ("b + ".toList ++ (bracketed "c * 99999999999999999999".toList ++ []))) [] :=
    OperandAt.over [[.or]] (by decide +kernel) (by decide +kernel) (by decide +kernel)
      ((inert_bracketed hsum'.balanced).operandAt_last "a ".toList .and (v := [' '])
        rfl (by decide +kernel) (by decide +kernel) (by decide +kernel)
        [[.ge, .le], [.gt, .lt], [.eq, .ne], [.add, .sub], [.mul, .div, .rem]])
  have big : Inert "99999999999999999999".toList :=
    inert_of_nameChars (by decide +kernel) (List.all_eq_true.1 (by decide +kernel))
  have hnum : OperandAt levels "x + ".toList "99999999999999999999".toList [] :=
    OperandAt.over [[.or], [.and], [.ge, .le], [.gt, .lt], [.eq, .ne]]
      (by decide +kernel) (by decide +kernel) (by decide +kernel)
      (big.operandAt_last "x ".toList .add (v := [' ']) rfl (by decide +kernel)
        (by decide +kernel) (by decide +kernel) [[.mul, .div, .rem]])
  have hinner : Unread 255 "b + ".toList "c * 99999999999999999999".toList [] :=
    .operand hsum hs ⟨.outOfRange, by decide +kernel⟩
  refine ⟨?_, ?_, ?_⟩
  · have hu : Unread maxNesting ("a && ".toList ++ '(' :: "b + ".toList)
        "c * 99999999999999999999".toList ([] ++ ')' :: []) :=
      .inner (e := .binary (.identifier "b") .add (.raw "(c * 99999999999999999999)")) hand
        (by decide +kernel) hinner
    have hok : ¬ Fails (Expr.ofNested maxNesting "a && (b + (c * 99999999999999999999))".toList) :=
      not_fails_iff.2 ⟨.binary (.identifier "a") .and
        (.binary (.identifier "b") .add (.raw "(c * 99999999999999999999)")), by decide +kernel⟩
    obtain ⟨c, hc, hx⟩ := (failure_contained _).2.2.2 hok _ _ _ (by decide +kernel) hu
    exact ⟨c, hc, hx "d.e" (by decide +kernel) (by decide +kernel) (by decide +kernel)⟩
  · exact (failure_contained _).2.1 1 "a && ".toList
      ("b + ".toList ++ (bracketed "c * 99999999999999999999".toList ++ []))
      "99999999999999999999".toList [] (by decide +kernel) (balanced_iff_nested.1 (by decide +kernel))
      hsum' (balanced_iff_nested.1 (by decide +kernel))
  · have hout : OutOfRange "99999999999999999999".toList :=
      number?_error_iff.1 ⟨.outOfRange, by decide +kernel⟩
    have hf := (failure_contained "x + 99999999999999999999").1 maxNesting
    exact (failure_contained _).2.2.1 (hf.2 (.inr ⟨_, _, _, by decide +kernel, hnum, hout⟩))

end Stencil
