import Stencil.Proofs.Expr.Sequences
import Stencil.Proofs.Expr.Signs

/-!
# White space between tokens

Written with any white space around its operands a sequence of operands and operators is read as the same
tree, with one exception. White space that is not plain, between an arithmetic operator and the sign of an
operand, makes an operator of the sign: it stands behind an operand that is left out, and what follows it
is an operand of its own.
-/

namespace Stencil

/-! ## Tokens -/

/-- Outside brackets and quotes no symbol of an operator stands in the text. -/
def Plain (t : List Char) : Prop :=
  ∀ (op : Operator) (a b : List Char), t = a ++ (op.chars ++ b) → ¬ Balanced a

/-- An operand without its sign. -/
structure IsBody (r : List Char) : Prop where
  balanced : Balanced r
  plain : Plain r
  head : r.head? ≠ some '='
  last : ∃ a c, r = a ++ [c] ∧ Text.isBlank c = false ∧ beforeSign c = false

/-- An operand; it may have a sign. -/
def IsToken (o : List Char) : Prop := ∃ s r, o = s ++ r ∧ IsSign s ∧ IsBody r

def signOf : List Char → Option Operator
  | '+' :: _ => some .add
  | '-' :: _ => some .sub
  | _ => none

/-- The sign of the operand behind the operator, if white space before it makes it an operator. -/
def stray? (op : Operator) (x : List Char) : Option Operator :=
  if op.isArithmetic && !(x.takeWhile Text.isBlank).all isPlainBlank then signOf (Text.trim x) else none

/-- An operator and the operand behind it, as they are read. -/
def tear (p : Operator × List Char) : List (Operator × List Char) :=
  match stray? p.1 p.2 with
  | none => [p]
  | some sign => [(p.1, p.2.takeWhile Text.isBlank), (sign, (Text.trimStart p.2).tail)]

namespace Cut

/-- The signs that are taken for operators. -/
def strays (k : Cut) : List (Option Operator) := k.tail.map fun p => stray? p.1 p.2

/-- The sequence as it is read. -/
def torn (k : Cut) : Cut := ⟨k.head, k.tail.flatMap tear⟩

/-- Every operand is there, with any white space around it. -/
def Spaced (k : Cut) : Prop := ∀ o ∈ k.trimmed.pieces, IsToken o

end Cut

theorem Plain.of_append {a t : List Char} (h : Plain (a ++ t)) (ha : Balanced a) : Plain t := by
  intro op b c e hb
  apply h op (a ++ b) c
  · rw [e, List.append_assoc]
  · exact ha.append hb

/-- In the rest of such a text no operator is found. -/
theorem Plain.solid_from {p t : List Char} (h : Plain (p ++ t)) {s : Scan}
    (hp : Scan.start.run p = some s) (ht : s.run t = some .start) (ops : Level) (sign : Bool) :
    Solid ops sign (markedFrom s t) := by
  induction t generalizing p s sign with
  | nil => rfl
  | cons c t ih =>
    rw [Scan.run_cons] at ht
    obtain ⟨s', hs, ht'⟩ := Option.bind_eq_some_iff.1 ht
    have hnone : operatorAt ops sign (markedFrom s (c :: t)) = none := by
      rw [operatorAt_eq_none]
      intro op _ hop
      obtain ⟨rfl, u, hu⟩ := symbolAt_markedFrom hop
      exact absurd hp (h op p u (by rw [hu]))
    rw [markedFrom] at hnone ⊢
    apply Solid.cons hnone
    rw [hs, Option.getD_some]
    apply ih (p := p ++ [c]) _ (run_concat hp hs) ht'
    rwa [List.append_assoc]

theorem Plain.solid {t : List Char} (h : Plain t) (hb : Balanced t) (ops : Level) (sign : Bool) :
    Solid ops sign (marked t) :=
  Plain.solid_from (p := []) h rfl hb ops sign

theorem isBody_of_nameChars {r : List Char} (hne : r ≠ []) (h : ∀ c ∈ r, isNameChar c) : IsBody r where
  balanced := balanced_of_flat fun c hc => isFlat_of_nameChar (h c hc)
  plain := by
    rintro op a b rfl _
    obtain ⟨c, s, hs⟩ := op.exists_chars
    have hc : c ∈ op.chars := hs ▸ List.mem_cons_self
    have hn := beforeSign_of_nameChar (h c (by simp [hc]))
    rw [beforeSign_of_mem_chars hc] at hn
    cases hn
  head := by
    intro e
    exact absurd (h '=' (List.mem_of_head? e)) (by decide)
  last := by
    obtain ⟨a, c, rfl⟩ := exists_concat hne
    have hc := h c (by simp)
    exact ⟨a, c, rfl, isBlank_of_nameChar hc, beforeSign_of_nameChar hc⟩

theorem plain_of_hidden {t : List Char} (h : marked t = t.map (·, false)) : Plain t := by
  rintro op a b rfl ha
  obtain ⟨c, s, hs⟩ := op.exists_chars
  have hm : (c, true) ∈ marked (a ++ (op.chars ++ b)) := by
    rw [marked_append ha, marked_symbol, hs]
    simp
  rw [h] at hm
  simp at hm

theorem isBody_of_hidden {t : List Char} (ht : IsOperand t) (h : marked t = t.map (·, false)) :
    IsBody t where
  balanced := ht.balanced
  plain := plain_of_hidden h
  head := by
    obtain ⟨c, r, rfl, hc⟩ := ht.head
    intro e
    cases e
    cases hc
  last := ht.last

/-- Variables, numbers, truth values and quoted texts are operands. -/
theorem SpellsLeaf.isToken {e : Expr} {t : List Char} (h : SpellsLeaf e t) : IsToken t := by
  obtain ⟨hne, hn⟩ | ⟨c, ds, hc, hd, rfl⟩ | ⟨q, s, hq, hs, rfl⟩ := h.form
  · exact ⟨[], t, rfl, .inl rfl, isBody_of_nameChars hne hn⟩
  · have hds : ∀ d ∈ ds, isNameChar d := fun d h => isNameChar_of_digit (hd.2 d h)
    refine ⟨[c], ds, rfl, ?_, isBody_of_nameChars hd.1 hds⟩
    rcases hc with rfl | rfl
    · exact .inr (.inl rfl)
    · exact .inr (.inr rfl)
  · exact ⟨[], _, rfl, .inl rfl, isBody_of_hidden (isOperand_inQuotes hq hs) (marked_inQuotes hq hs)⟩

theorem isToken_bracketed {s : List Char} (h : Balanced s) : IsToken (bracketed s) :=
  ⟨[], _, rfl, .inl rfl, isBody_of_hidden (isOperand_bracketed h) (marked_bracketed h)⟩

/-! ## What stands behind a text -/

theorem signPlace_append_blank {b v : List Char} (h : signPlace b = false)
    (hv : v.all Text.isBlank = true) : signPlace (b ++ v) = false := by
  induction v generalizing b with
  | nil => rwa [List.append_nil]
  | cons c v ih =>
    rw [List.all_cons, Bool.and_eq_true] at hv
    have hc : signPlace (b ++ [c]) = false := by
      rw [signPlace_concat, signAfter, h, beforeSign_of_blank hv.1]
      split <;> rfl
    have := ih hc hv.2
    rwa [List.append_assoc] at this

theorem signPlace_not_gap {u : List Char} (hu : u.all Text.isBlank = true)
    (h : u.all isPlainBlank = false) : signPlace u = false := by
  obtain ⟨c, hc, hp⟩ := List.all_eq_false.1 h
  obtain ⟨a, v, rfl⟩ := List.append_of_mem hc
  rw [List.all_append, List.all_cons, Bool.and_eq_true, Bool.and_eq_true] at hu
  have hs : signPlace (a ++ [c]) = false := by
    rw [signPlace_concat, signAfter_of_not_blank (by simpa using hp)]
    exact beforeSign_of_blank hu.2.1
  have := signPlace_append_blank hs hu.2.2
  rwa [List.append_assoc] at this

theorem seam_blank {v : List Char} (hv : v.all Text.isBlank = true) : Seam (marked v) := by
  rcases List.eq_nil_or_concat v with rfl | ⟨w, c, rfl⟩
  · intro p hp
    cases hp
  · rw [List.concat_eq_append] at hv ⊢
    apply seam_marked_concat
    exact beforeSign_of_blank (List.all_eq_true.1 hv c (by simp))

/-! ## Operands between white space -/

namespace IsBody

variable {r : List Char} (h : IsBody r)
include h

theorem ne_nil : r ≠ [] := by
  obtain ⟨a, c, rfl, -⟩ := h.last
  simp

theorem seam : Seam (marked r) := by
  obtain ⟨a, c, rfl, -, hc⟩ := h.last
  exact seam_marked_concat a hc

theorem signPlace (p : List Char) {v : List Char} (hv : v.all Text.isBlank = true) :
    signPlace (p ++ (r ++ v)) = false := by
  obtain ⟨a, c, rfl, hb, hc⟩ := h.last
  have hs : Stencil.signPlace (p ++ a ++ [c]) = false := by
    rw [signPlace_concat, signAfter_of_not_blank (isPlainBlank_of_not_blank hb), hc]
  have := signPlace_append_blank hs hv
  simpa using this

theorem trimStart_ne : Text.trimStart r ≠ [] := by
  obtain ⟨a, c, rfl, hb, -⟩ := h.last
  intro e
  have := List.dropWhile_eq_nil_iff.1 e c (by simp)
  rw [hb] at this
  cases this

theorem solid {v : List Char} (hv : v.all Text.isBlank = true) (ops : Level) (sign : Bool) :
    Solid ops sign (marked (r ++ v)) := by
  rw [marked_append h.balanced]
  exact (h.plain.solid h.balanced ops sign).append h.seam (solid_of_blank hv ops _)

theorem seam_append {v : List Char} (hv : v.all Text.isBlank = true) : Seam (marked (r ++ v)) := by
  by_cases hne : v = []
  · rw [hne, List.append_nil]
    exact h.seam
  · rw [marked_append h.balanced]
    exact (seam_blank hv).append (marked_ne_nil hne)

theorem trimStart_append {v : List Char} (hv : v.all Text.isBlank = true) (ops : Level) :
    Solid ops true (marked (Text.trimStart (r ++ v))) := by
  obtain ⟨w, hw, e⟩ := Text.exists_trimStart r
  have hwb := balanced_of_blank hw
  have hb : Balanced (Text.trimStart r) := by
    have := h.balanced
    rw [e] at this
    exact hwb.append_iff.1 this
  have hp : Plain (Text.trimStart r) := by
    apply Plain.of_append _ hwb
    rw [← e]
    exact h.plain
  have hseam : Seam (marked (Text.trimStart r)) := by
    apply h.seam.of_suffix
    refine ⟨marked w, ?_⟩
    rw [← marked_append hwb, ← e]
  rw [Text.trimStart_append_of_ne h.trimStart_ne, marked_append hb]
  exact (hp.solid hb ops true).append hseam (solid_of_blank hv ops _)

theorem signOf_eq_none : signOf r = none := by
  cases r with
  | nil => rfl
  | cons c t =>
    have hadd : c ≠ '+' := by
      rintro rfl
      exact h.plain .add [] t rfl rfl
    have hsub : c ≠ '-' := by
      rintro rfl
      exact h.plain .sub [] t rfl rfl
    unfold signOf
    split
    · rename_i e
      cases e
      exact absurd rfl hadd
    · rename_i e
      cases e
      exact absurd rfl hsub
    · rfl

end IsBody

theorem exists_symbol {s : List Char} (h : IsSign s) :
    s = [] ∨ ∃ op : Operator, op.isSign = true ∧ s = op.chars := by
  rcases h with rfl | rfl | rfl
  · exact .inl rfl
  · exact .inr ⟨.add, rfl, rfl⟩
  · exact .inr ⟨.sub, rfl, rfl⟩

theorem marked_cons_sign {op : Operator} (h : op.isSign = true) (t : List Char) :
    ∃ c, (c = '+' ∨ c = '-') ∧ op.chars = [c] ∧ marked (op.chars ++ t) = (c, true) :: marked t := by
  cases op <;> cases h
  · exact ⟨'+', .inl rfl, rfl, marked_symbol .add t⟩
  · exact ⟨'-', .inr rfl, rfl, marked_symbol .sub t⟩

theorem isSign_of_not_arithmetic {op : Operator} (h : op.isArithmetic = false) :
    ∀ ops ∈ levels.take (op.rank + 1), ∀ o ∈ ops, o.isSign = false := by
  cases op <;> cases h <;> decide

section
variable {s r u v : List Char} (hs : IsSign s) (hr : IsBody r) (hu : u.all Text.isBlank = true)
  (hv : v.all Text.isBlank = true)
include hs hr hv

/-- Behind a sign that is none of the operators of the level nothing is found. -/
theorem solid_token {ops : Level} {sign : Bool}
    (hfit : s = [] ∨ sign = true ∨ ∀ op ∈ ops, op.isSign = false) :
    Solid ops sign (marked (s ++ (r ++ v))) := by
  rcases exists_symbol hs with rfl | ⟨op, hop, rfl⟩
  · exact hr.solid hv ops sign
  · obtain ⟨c, hc, he, hm⟩ := marked_cons_sign hop (r ++ v)
    rw [hm]
    have hfit' := hfit.resolve_left (by simp [he])
    exact Solid.cons (operatorAt_sign hc hfit' _) (hr.solid hv ops _)

include hu

theorem whole_token : Whole (u ++ (s ++ (r ++ v))) := by
  have hsb : Balanced s := by
    rcases hs with rfl | rfl | rfl <;> rfl
  have hus := (balanced_of_blank hu).append hsb
  refine ⟨?_, ?_, ?_⟩
  · exact (balanced_of_blank hu).append (hsb.append (hr.balanced.append (balanced_of_blank hv)))
  · rw [← List.append_assoc, marked_append hus]
    apply (hr.seam_append hv).append
    apply marked_ne_nil
    simp [hr.ne_nil]
  · intro ops _
    rw [Text.trimStart_blank_append hu]
    rcases exists_symbol hs with rfl | ⟨op, hop, rfl⟩
    · exact hr.trimStart_append hv ops
    · obtain ⟨c, hc, he, -⟩ := marked_cons_sign hop (r ++ v)
      have hb : Text.isBlank c = false := by rcases hc with rfl | rfl <;> decide
      have ht : Text.trimStart (op.chars ++ (r ++ v)) = op.chars ++ (r ++ v) := by
        rw [he]
        exact List.dropWhile_cons_of_neg (by simp [hb])
      rw [ht]
      exact solid_token hs hr hv (.inr (.inl rfl))

theorem follows_token {op : Operator}
    (hfit : s = [] ∨ op.isArithmetic = false ∨ u.all isPlainBlank = true) :
    Follows op (u ++ (s ++ (r ++ v))) := by
  refine ⟨?_, ?_⟩
  · cases u with
    | cons c u =>
      refine ⟨c, _, rfl, ?_⟩
      rintro rfl
      cases hu
    | nil =>
      rcases exists_symbol hs with rfl | ⟨sign, hsign, rfl⟩
      · obtain ⟨c, t, e⟩ := List.exists_cons_of_ne_nil hr.ne_nil
        refine ⟨c, t ++ v, by rw [e]; rfl, ?_⟩
        rintro rfl
        apply hr.head
        rw [e]
        rfl
      · obtain ⟨c, hc, he, -⟩ := marked_cons_sign hsign (r ++ v)
        refine ⟨c, r ++ v, by rw [he]; rfl, ?_⟩
        rcases hc with rfl | rfl <;> decide
  · intro ops hops
    have hseam := seam_blank hu
    rw [marked_append (balanced_of_blank hu)]
    apply (solid_of_blank hu ops true).append hseam
    apply solid_token hs hr hv
    rcases hfit with hnil | hop | hplain
    · exact .inl hnil
    · exact .inr (.inr (isSign_of_not_arithmetic hop ops hops))
    · right
      left
      have hgap : Gap u := List.all_eq_true.1 hplain
      rw [signs_marked]
      exact signPlace_gap [] hgap

end

theorem whole_blank {u : List Char} (hu : u.all Text.isBlank = true) : Whole u where
  balanced := balanced_of_blank hu
  seam := seam_blank hu
  solid := by
    rw [Text.trimStart_of_blank hu]
    intro ops _
    rfl

theorem follows_blank {u : List Char} (hu : u.all Text.isBlank = true) (hne : u ≠ []) (op : Operator) :
    Follows op u := by
  refine ⟨?_, fun ops _ => solid_of_blank hu ops true⟩
  obtain ⟨c, t, rfl⟩ := List.exists_cons_of_ne_nil hne
  refine ⟨c, t, rfl, ?_⟩
  rintro rfl
  cases hu

/-! ## Sequences as they are read -/

theorem signOf_token {s r : List Char} (hs : IsSign s) (hr : IsBody r) :
    (s = [] ∧ signOf (s ++ r) = none) ∨
      ∃ op : Operator, op.isSign = true ∧ s = op.chars ∧ signOf (s ++ r) = some op := by
  rcases hs with rfl | rfl | rfl
  · exact .inl ⟨rfl, hr.signOf_eq_none⟩
  · exact .inr ⟨.add, rfl, rfl, rfl⟩
  · exact .inr ⟨.sub, rfl, rfl, rfl⟩

/-- An operand with its white space, and what becomes of it behind an operator. -/
theorem exists_token {x : List Char} (h : IsToken (Text.trim x)) :
    ∃ s r v, IsSign s ∧ IsBody r ∧ v.all Text.isBlank = true ∧ Text.trim x = s ++ r ∧
      Text.trimStart x = s ++ (r ++ v) ∧ x = x.takeWhile Text.isBlank ++ (s ++ (r ++ v)) := by
  obtain ⟨s, r, e, hs, hr⟩ := h
  obtain ⟨v, hv, et⟩ := Text.exists_trimStart_trim x
  rw [e, List.append_assoc] at et
  refine ⟨s, r, v, hs, hr, hv, e, et, ?_⟩
  rw [← et]
  exact (List.takeWhile_append_dropWhile ..).symm

theorem IsToken.whole {x : List Char} (h : IsToken (Text.trim x)) : Whole x := by
  obtain ⟨s, r, v, hs, hr, hv, -, -, e⟩ := exists_token h
  rw [e]
  exact whole_token hs hr List.all_takeWhile hv

theorem IsToken.signPlace {x : List Char} (h : IsToken (Text.trim x)) : signPlace x = false := by
  obtain ⟨s, r, v, -, hr, hv, -, -, e⟩ := exists_token h
  rw [e, ← List.append_assoc]
  exact hr.signPlace _ hv

theorem IsToken.trimStart_ne {x : List Char} (h : IsToken (Text.trim x)) : Text.trimStart x ≠ [] := by
  obtain ⟨s, r, v, -, hr, -, -, e, -⟩ := exists_token h
  rw [e]
  simp [hr.ne_nil]

theorem stray?_cases (op : Operator) {x s r : List Char} (hs : IsSign s) (hr : IsBody r)
    (e : Text.trim x = s ++ r) :
    (stray? op x = none ∧
      (s = [] ∨ op.isArithmetic = false ∨ (x.takeWhile Text.isBlank).all isPlainBlank = true)) ∨
    ∃ sign : Operator, stray? op x = some sign ∧ sign.isSign = true ∧ s = sign.chars ∧
      op.isArithmetic = true ∧ (x.takeWhile Text.isBlank).all isPlainBlank = false := by
  unfold stray?
  rw [e]
  cases ha : op.isArithmetic with
  | false => exact .inl ⟨rfl, .inr (.inl rfl)⟩
  | true =>
    cases hp : (x.takeWhile Text.isBlank).all isPlainBlank with
    | true => exact .inl ⟨rfl, .inr (.inr rfl)⟩
    | false =>
      rcases signOf_token hs hr with ⟨hnil, hn⟩ | ⟨sign, hsign, hc, hsome⟩
      · exact .inl ⟨hn, .inl hnil⟩
      · exact .inr ⟨sign, hsome, hsign, hc, rfl, rfl⟩

theorem tail_symbol {sign : Operator} (h : sign.isSign = true) (t : List Char) :
    (sign.chars ++ t).tail = t := by
  cases sign <;> cases h <;> rfl

/-- A sign binds no tighter than an arithmetic operator before it. -/
theorem rank_sign_le {op sign : Operator} (ho : op.isArithmetic = true) (hs : sign.isSign = true) :
    sign.rank ≤ op.rank := by
  cases op <;> cases ho <;> cases sign <;> cases hs <;> decide

theorem written_torn {x : List Char} (hx : Whole x) (hs : signPlace x = false)
    {r : List (Operator × List Char)} (hr : ∀ p ∈ r, IsToken (Text.trim p.2)) :
    Written 0 x (r.flatMap tear) := by
  induction r generalizing x with
  | nil => exact .last hx
  | cons p r ih =>
    obtain ⟨op, y⟩ := p
    have hy : IsToken (Text.trim y) := hr (op, y) List.mem_cons_self
    have hr' : ∀ p ∈ r, IsToken (Text.trim p.2) := fun p hp => hr p (List.mem_cons_of_mem _ hp)
    obtain ⟨s, b, v, hsb, hb, hv, htrim, hstart, e⟩ := exists_token hy
    have hu : (y.takeWhile Text.isBlank).all Text.isBlank = true := List.all_takeWhile
    rw [List.flatMap_cons]
    rcases stray?_cases op hsb hb htrim with ⟨hnone, hfit⟩ | ⟨sign, hsome, hsign, rfl, hop, hplain⟩
    · simp only [tear, hnone]
      have hf : Follows op y := by
        rw [e]
        exact follows_token hsb hb hu hv hfit
      refine .next hx (fun _ => hs) (Nat.zero_le _) hf ?_ (ih hy.whole hy.signPlace hr')
      intro hnil
      exact absurd hnil hy.trimStart_ne
    · -- The white space is an operand that is left out, and the sign stands behind it.
      simp only [tear, hsome, hstart, tail_symbol hsign]
      have hne : y.takeWhile Text.isBlank ≠ [] := by
        intro e
        rw [e] at hplain
        cases hplain
      have hbody : Whole (b ++ v) := whole_token (s := []) (u := []) (.inl rfl) hb rfl hv
      have hplace : signPlace (b ++ v) = false := hb.signPlace [] hv
      have hf : Follows sign (b ++ v) :=
        follows_token (s := []) (u := []) (.inl rfl) hb rfl hv (.inl rfl)
      have hrest : Written 0 (y.takeWhile Text.isBlank) ((sign, b ++ v) :: r.flatMap tear) := by
        refine .next (whole_blank hu) (fun _ => signPlace_not_gap hu hplain) (Nat.zero_le _) hf ?_
          (ih hbody hplace hr')
        intro hnil
        rw [Text.trimStart_append_of_ne hb.trimStart_ne] at hnil
        exact absurd (List.append_eq_nil_iff.1 hnil).1 hb.trimStart_ne
      refine .next hx (fun _ => hs) (Nat.zero_le _) (follows_blank hu hne op) ?_ hrest
      intro _ p hp
      cases hp
      exact rank_sign_le hop hsign

theorem join_tear {op : Operator} {x : List Char} (h : IsToken (Text.trim x)) :
    (tear (op, x)).flatMap (fun p => p.1.chars ++ p.2) = op.chars ++ x := by
  obtain ⟨s, r, v, hs, hr, -, htrim, hstart, e⟩ := exists_token h
  rcases stray?_cases op hs hr htrim with ⟨hnone, -⟩ | ⟨sign, hsome, hsign, rfl, -, -⟩
  · simp [tear, hnone]
  · simp only [tear, hsome, hstart, tail_symbol hsign, List.flatMap_cons, List.flatMap_nil]
    conv_rhs => rw [e]
    simp

namespace Cut.Spaced

variable {k : Cut} (h : k.Spaced)
include h

theorem head : IsToken (Text.trim k.head) := h _ List.mem_cons_self

theorem tail : ∀ p ∈ k.tail, IsToken (Text.trim p.2) := by
  intro p hp
  apply h
  simp only [Cut.pieces, Cut.trimmed, List.map_map, List.mem_cons, List.mem_map]
  exact .inr ⟨p, hp, rfl⟩

theorem join_torn : k.torn.join = k.join := by
  have htail := h.tail
  obtain ⟨x, r⟩ := k
  simp only [Cut.torn, Cut.join, List.flatMap_assoc]
  congr 1
  apply List.flatMap_congr
  intro p hp
  exact join_tear (htail p hp)

/-- Whatever white space stands around its operands, a sequence is read as its tree, but for the signs that
are taken for operators. -/
theorem climb (inner : List Char → Except Fault Expr) :
    Expr.climb inner levels k.join = k.torn.trimmed.tree (Expr.ofOperand inner) levels := by
  have hw := written_torn h.head.whole h.head.signPlace h.tail
  rw [← h.join_torn]
  apply hw.climb
  intro e
  exact absurd e h.head.trimStart_ne

end Cut.Spaced

/-! ## One sequence with different white space -/

theorem tear_congr {op : Operator} {x x' : List Char} (ht : Text.trim x = Text.trim x')
    (hne : Text.trim x ≠ []) (hs : stray? op x = stray? op x') :
    (tear (op, x)).map (fun p => (p.1, Text.trim p.2)) =
      (tear (op, x')).map (fun p => (p.1, Text.trim p.2)) := by
  unfold tear
  rw [← hs]
  cases stray? op x with
  | none => simp only [List.map_cons, ht]
  | some sign =>
    have hx := Text.trim_tail_trimStart hne
    have hx' := Text.trim_tail_trimStart (x := x') (ht ▸ hne)
    simp only [List.map_cons, Text.trim_takeWhile, hx, hx', ht]

theorem IsToken.ne_nil {o : List Char} (h : IsToken o) : o ≠ [] := by
  obtain ⟨s, r, rfl, -, hr⟩ := h
  simp [hr.ne_nil]

theorem flatMap_tear_congr {r r' : List (Operator × List Char)}
    (hr : ∀ p ∈ r, IsToken (Text.trim p.2))
    (ht : r.map (fun p => (p.1, Text.trim p.2)) = r'.map fun p => (p.1, Text.trim p.2))
    (hs : r.map (fun p => stray? p.1 p.2) = r'.map fun p => stray? p.1 p.2) :
    (r.flatMap tear).map (fun p => (p.1, Text.trim p.2)) =
      (r'.flatMap tear).map fun p => (p.1, Text.trim p.2) := by
  induction r generalizing r' with
  | nil =>
    cases r' with
    | nil => rfl
    | cons p r' => cases ht
  | cons p r ih =>
    cases r' with
    | nil => cases ht
    | cons p' r' =>
      obtain ⟨op, x⟩ := p
      obtain ⟨op', x'⟩ := p'
      simp only [List.map_cons, List.cons.injEq, Prod.mk.injEq] at ht hs
      obtain ⟨⟨rfl, hx⟩, ht⟩ := ht
      have hne := (hr (op, x) List.mem_cons_self).ne_nil
      rw [List.flatMap_cons, List.flatMap_cons, List.map_append, List.map_append,
        tear_congr hx hne hs.1, ih (fun p hp => hr p (List.mem_cons_of_mem _ hp)) ht hs.2]

theorem Cut.Spaced.trimmed_torn {k k' : Cut} (h : k.Spaced) (ht : k.trimmed = k'.trimmed)
    (hs : k.strays = k'.strays) : k.torn.trimmed = k'.torn.trimmed := by
  have htail := h.tail
  obtain ⟨x, r⟩ := k
  obtain ⟨x', r'⟩ := k'
  simp only [Cut.trimmed, Cut.mk.injEq] at ht
  simp only [Cut.trimmed, Cut.torn, Cut.mk.injEq]
  exact ⟨ht.1, flatMap_tear_congr htail ht.2 hs⟩

theorem Cut.Spaced.allBlank {k : Cut} (h : k.Spaced) : Text.allBlank (String.ofList k.join) = false := by
  have hne : Text.trim k.join ≠ [] := by
    intro e
    rw [Text.trim_eq_nil_iff, Cut.join, List.all_append, Bool.and_eq_true] at e
    exact h.head.ne_nil (Text.trim_eq_nil_iff.2 e.1)
  rw [Text.allBlank, String.toList_ofList, ← Bool.not_eq_true, ← Text.trim_eq_nil_iff]
  exact hne

/-! ## Signs that stray make another tree -/

section
variable (inner : List Char → Except Fault Expr)

/-- An operand with a sign is one leaf, and not that of an operand that is left out. -/
theorem leaves_signed {sign : Operator} (hs : sign.isSign = true) (r : List Char) :
    leaves (Expr.ofOperand inner) (sign.chars ++ r) = [] ∨
      ∃ e, leaves (Expr.ofOperand inner) (sign.chars ++ r) = [.inr e] ∧ e ≠ .literal .null := by
  obtain ⟨c, hc, he, -⟩ := marked_cons_sign hs r
  have hb : c ≠ '(' := by rcases hc with rfl | rfl <;> decide
  have hread : Expr.ofOperand inner (sign.chars ++ r) = Expr.ofToken (sign.chars ++ r) := by
    rw [he, List.singleton_append, ofOperand_of_ne_nil (List.cons_ne_nil c r), enclosed_eq_none hb]
  unfold leaves
  rw [hread]
  cases ht : Expr.ofToken (sign.chars ++ r) with
  | error f => exact .inl rfl
  | ok e =>
    right
    refine ⟨e, ?_, ?_⟩
    · rcases Expr.ofToken_cases ht with ⟨l, rfl⟩ | ⟨-, rfl⟩ | rfl <;> rfl
    · rintro rfl
      rcases literal_of_ofToken ht with hn | ⟨_, _, h⟩ | ⟨_, h⟩
      · rcases number?_ok hn with ⟨_, h⟩ | ⟨_, h⟩ | ⟨_, h⟩ <;> cases h
      · cases h
      · cases h

theorem leavesBehind_append (r r' : List (Operator × List Char)) :
    leavesBehind (Expr.ofOperand inner) (r ++ r') =
      leavesBehind (Expr.ofOperand inner) r ++ leavesBehind (Expr.ofOperand inner) r' :=
  List.flatMap_append

theorem leavesBehind_head (r : List (Operator × List Char)) (e : Expr) (w : List (Operator ⊕ Expr)) :
    leavesBehind (Expr.ofOperand inner) r ≠ .inr e :: w := by
  cases r with
  | nil =>
    intro h
    cases h
  | cons p r =>
    intro h
    cases h

theorem stray?_congr {op sign sign' : Operator} {x x' : List Char} (ht : Text.trim x = Text.trim x')
    (hx : stray? op x = some sign) (hx' : stray? op x' = some sign') : stray? op x = stray? op x' := by
  unfold stray? at hx hx' ⊢
  rw [← ht] at hx' ⊢
  by_cases h : (op.isArithmetic && !(x.takeWhile Text.isBlank).all isPlainBlank) = true
  · by_cases h' : (op.isArithmetic && !(x'.takeWhile Text.isBlank).all isPlainBlank) = true
    · rw [if_pos h, if_pos h']
    · rw [if_neg h'] at hx'
      cases hx'
  · rw [if_neg h] at hx
    cases hx

/-- Behind the operator the one has the operand and the other has nothing. -/
theorem leavesBehind_stray_ne {op sign : Operator} {x x' : List Char} (h : IsToken (Text.trim x))
    (ht : Text.trim x = Text.trim x') (hx : stray? op x = none) (hx' : stray? op x' = some sign)
    (r r' : List (Operator × List Char)) :
    leavesBehind (Expr.ofOperand inner) ((tear (op, x)).map (fun p => (p.1, Text.trim p.2)) ++ r) ≠
      leavesBehind (Expr.ofOperand inner) ((tear (op, x')).map (fun p => (p.1, Text.trim p.2)) ++ r') := by
  obtain ⟨s, b, e, hs, hb⟩ := h
  have hsigned : ∃ sign' : Operator, sign'.isSign = true ∧ Text.trim x = sign'.chars ++ b := by
    rcases stray?_cases op hs hb (ht ▸ e) with ⟨hn, -⟩ | ⟨sign', -, hsign, rfl, -⟩
    · rw [hx'] at hn
      cases hn
    · exact ⟨sign', hsign, e⟩
  obtain ⟨sign', hsign, e'⟩ := hsigned
  rw [leavesBehind_append, leavesBehind_append]
  have hnull : leaves (Expr.ofOperand inner) [] = [.inr (.literal .null)] := rfl
  have hleft : leavesBehind (Expr.ofOperand inner)
      ((tear (op, x)).map fun p => (p.1, Text.trim p.2)) =
        .inl op :: leaves (Expr.ofOperand inner) (sign'.chars ++ b) := by
    simp [tear, hx, leavesBehind, e']
  have hright : ∃ w, leavesBehind (Expr.ofOperand inner)
      ((tear (op, x')).map fun p => (p.1, Text.trim p.2)) = .inl op :: .inr (.literal .null) :: w := by
    simp [tear, hx', leavesBehind, Text.trim_takeWhile, hnull]
  obtain ⟨w, hright⟩ := hright
  intro h
  rw [hleft, hright, List.cons_append, List.cons_append, List.cons.injEq, List.cons_append] at h
  rcases leaves_signed inner hsign b with hnil | ⟨l, hl, hne⟩
  · rw [hnil, List.nil_append] at h
    exact leavesBehind_head inner r _ _ h.2
  · rw [hl, List.singleton_append, List.cons.injEq] at h
    exact hne (Sum.inr.inj h.2.1)

theorem strays_of_leaves {r r' : List (Operator × List Char)} (hr : ∀ p ∈ r, IsToken (Text.trim p.2))
    (ht : r.map (fun p => (p.1, Text.trim p.2)) = r'.map fun p => (p.1, Text.trim p.2))
    (h : leavesBehind (Expr.ofOperand inner) ((r.flatMap tear).map fun p => (p.1, Text.trim p.2)) =
      leavesBehind (Expr.ofOperand inner) ((r'.flatMap tear).map fun p => (p.1, Text.trim p.2))) :
    r.map (fun p => stray? p.1 p.2) = r'.map fun p => stray? p.1 p.2 := by
  induction r generalizing r' with
  | nil =>
    cases r' with
    | nil => rfl
    | cons p r' => cases ht
  | cons p r ih =>
    cases r' with
    | nil => cases ht
    | cons p' r' =>
      obtain ⟨op, x⟩ := p
      obtain ⟨op', x'⟩ := p'
      simp only [List.map_cons, List.cons.injEq, Prod.mk.injEq] at ht
      obtain ⟨⟨rfl, hx⟩, ht⟩ := ht
      have htoken : IsToken (Text.trim x) := hr (op, x) List.mem_cons_self
      have htoken' : IsToken (Text.trim x') := hx ▸ htoken
      rw [List.flatMap_cons, List.flatMap_cons, List.map_append, List.map_append] at h
      have hs : stray? op x = stray? op x' := by
        cases hsx : stray? op x with
        | none =>
          cases hsx' : stray? op x' with
          | none => rfl
          | some sign => exact absurd h (leavesBehind_stray_ne inner htoken hx hsx hsx' _ _)
        | some sign =>
          cases hsx' : stray? op x' with
          | none => exact absurd h.symm (leavesBehind_stray_ne inner htoken' hx.symm hsx' hsx _ _)
          | some sign' => rw [← hsx, ← hsx', stray?_congr hx hsx hsx']
      rw [tear_congr hx htoken.ne_nil hs, leavesBehind_append, leavesBehind_append,
        List.append_cancel_left_eq] at h
      rw [List.map_cons, List.map_cons, hs, ih (fun p hp => hr p (List.mem_cons_of_mem _ hp)) ht h]

end

theorem mem_flatten_levels (op : Operator) : op ∈ levels.flatten := by
  cases op <;> decide

namespace Cut.Spaced

variable {k k' : Cut} (h : k.Spaced) (ht : k.trimmed = k'.trimmed)
include h

theorem of_trimmed (ht : k.trimmed = k'.trimmed) : k'.Spaced := by
  unfold Cut.Spaced at h ⊢
  rwa [← ht]

theorem ofNested : Expr.ofNested maxNesting k.join =
    k.torn.trimmed.tree (Expr.ofOperand (Expr.inside maxNesting)) levels := by
  rw [Expr.ofNested_eq]
  exact h.climb _

theorem inorder {e : Expr} (he : Expr.ofNested maxNesting k.join = .ok e) :
    e.inorder = leaves (Expr.ofOperand (Expr.inside maxNesting)) k.trimmed.head ++
      leavesBehind (Expr.ofOperand (Expr.inside maxNesting)) k.torn.trimmed.tail := by
  rw [h.ofNested] at he
  exact Cut.inorder_tree _ (fun p _ => mem_flatten_levels p.1) he

include ht

/-- The tree shows which signs strayed. -/
theorem strays_of_ofNested {e : Expr} (he : Expr.ofNested maxNesting k.join = .ok e)
    (he' : Expr.ofNested maxNesting k'.join = .ok e) : k.strays = k'.strays := by
  have hin := (h.inorder he).symm.trans ((h.of_trimmed ht).inorder he')
  rw [← ht, List.append_cancel_left_eq] at hin
  exact strays_of_leaves _ h.tail (congrArg Cut.tail ht) hin

/-- The tree of two or more operands is no text left raw. -/
theorem strays_of_raw {s : String} (he : Expr.ofNested maxNesting k.join = .ok (.raw s)) :
    k.strays = k'.strays := by
  have hin := h.inorder he
  cases hr : k.tail with
  | nil =>
    have hr' : k'.tail = [] := by
      have := congrArg Cut.tail ht
      simpa [Cut.trimmed, hr] using this.symm
    rw [Cut.strays, Cut.strays, hr, hr']
  | cons p r =>
    have hmem : .inl p.1 ∈ Expr.inorder (.raw s) := by
      rw [hin, List.mem_append]
      right
      have htear : ∃ y q, tear p = (p.1, y) :: q := by
        unfold tear
        split
        · exact ⟨p.2, [], rfl⟩
        · exact ⟨_, _, rfl⟩
      obtain ⟨y, q, htear⟩ := htear
      simp [Cut.torn, Cut.trimmed, hr, htear, leavesBehind]
    simp [Expr.inorder] at hmem

end Cut.Spaced

/-- A sequence of operands and operators with any white space around its operands is read as the tree of
the sequence, in which a plus or minus in front of an operand is an operator if it stands behind an
arithmetic operator and white space that is not plain. Two ways of writing a sequence that can be read give
the same tree exactly if the same signs are operators in both. -/
theorem spacing_exact {k k' : Cut} (h : k.Spaced) (ht : k.trimmed = k'.trimmed) :
    Expr.ofNested maxNesting k.join =
      k.torn.trimmed.tree (Expr.ofOperand (Expr.inside maxNesting)) levels ∧
    (k.strays = k'.strays → Expr.ofNested maxNesting k.join = Expr.ofNested maxNesting k'.join) ∧
    (¬ Fails (Expr.ofNested maxNesting k.join) →
      (Reader.binary.read (String.ofList k.join) = Reader.binary.read (String.ofList k'.join) ↔
        k.strays = k'.strays)) ∧
    (Fails (Expr.ofNested maxNesting k.join) →
      Reader.binary.read (String.ofList k.join) = .raw (String.ofList k.join)) := by
  have h' := h.of_trimmed ht
  have same : k.strays = k'.strays →
      Expr.ofNested maxNesting k.join = Expr.ofNested maxNesting k'.join := by
    intro hs
    rw [h.ofNested, h'.ofNested, h.trimmed_torn ht hs]
  have read : ∀ {k : Cut} {e : Expr}, k.Spaced → Expr.ofNested maxNesting k.join = .ok e →
      Reader.binary.read (String.ofList k.join) = e := by
    intro k e h he
    exact read_of_ok h.allBlank (by rwa [String.toList_ofList])
  refine ⟨h.ofNested, same, ?_, ?_⟩
  · intro hok
    obtain ⟨e, he⟩ := not_fails_iff.1 hok
    rw [read h he]
    constructor
    · intro hread
      by_cases hf : Fails (Expr.ofNested maxNesting k'.join)
      · rw [read_of_fails (by rwa [String.toList_ofList])] at hread
        rw [hread] at he
        exact h.strays_of_raw ht he
      · obtain ⟨e', he'⟩ := not_fails_iff.1 hf
        rw [read h' he'] at hread
        rw [← hread] at he'
        exact h.strays_of_ofNested ht he he'
    · intro hs
      rw [read h' ((same hs).symm.trans he)]
  · intro hf
    exact read_of_fails (by rwa [String.toList_ofList])

/-- A product with a sign, written with white space of two kinds, and with a no-break space before the
sign. -/
theorem spacing_exact_product :
    Reader.binary.read "(a) * -1 && 'b'" = Reader.binary.read "(a)\u00a0*\t -1\u3000&&\u2028'b'" ∧
    Reader.binary.read "(a) * -1 && 'b'" =
      .binary (.binary (.identifier "a") .mul (.literal (.int (-1)))) .and (.literal (.str "b")) ∧
    Expr.ofNested maxNesting "(a) *\u00a0-1".toList =
      .ok (.binary (.binary (.identifier "a") .mul (.literal .null)) .sub (.literal (.int 1))) := by
  let k : Cut := ⟨"(a) ".toList, [(.mul, " -1 ".toList), (.and, " 'b'".toList)]⟩
  let k' : Cut := ⟨"(a)\u00a0".toList, [(.mul, "\t -1\u3000".toList), (.and, "\u2028'b'".toList)]⟩
  let l : Cut := ⟨"(a) ".toList, [(.mul, "\u00a0-1".toList)]⟩
  have one : SpellsInt (-1) ['-', '1'] := @SpellsInt.minus ['1'] ⟨by decide, List.all_eq_true.1 rfl⟩
  have token : ∀ o ∈ k.trimmed.pieces, IsToken o := by
    have he : k.trimmed.pieces = [bracketed ['a'], ['-', '1'], inQuotes '\'' "b".toList] := by
      decide +kernel
    simp only [he, List.forall_mem_cons, List.not_mem_nil, false_implies, implies_true, and_true]
    have hone : SpellsLeaf (.literal (.int (-1))) ['-', '1'] := .int one
    have hb : SpellsLeaf (.literal (.str "b")) (inQuotes '\'' "b".toList) := .str rfl (by decide)
    exact ⟨isToken_bracketed (by decide +kernel), hone.isToken, hb.isToken⟩
  have hl : l.Spaced := by
    intro o ho
    have hsub : l.trimmed.pieces ⊆ k.trimmed.pieces := by decide +kernel
    exact token o (hsub ho)
  have hok : ¬ Fails (Expr.ofNested maxNesting k.join) :=
    not_fails_iff.2 ⟨.binary (.binary (.identifier "a") .mul (.literal (.int (-1)))) .and
      (.literal (.str "b")), by decide +kernel⟩
  have ht : k.trimmed = k'.trimmed := by decide +kernel
  refine ⟨((spacing_exact token ht).2.2.1 hok).2 (by decide +kernel), by decide +kernel, ?_⟩
  exact (spacing_exact hl rfl).1.trans (by decide +kernel)

end Stencil
