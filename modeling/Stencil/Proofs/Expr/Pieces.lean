import Stencil.Proofs.Expr.RoundTrip
import Stencil.Proofs.Expr.Nesting

/-!
# The pieces of a cut

`CutsInto` says which cut a text has without a scan: going from left to right, an operator of the
level is taken wherever one stands outside brackets and quotes, not at the very start and not as a
sign. `cut` gives that cut and no other. Its pieces are balanced, and with the operators between
them they give the text back.
-/

namespace Stencil

/-- Behind this text a plus or minus is a sign: what comes last in it, apart from white space, is a
character after which an operand starts, or nothing. -/
def signPlace (b : List Char) : Bool := (b.reverse.find? fun c => !isPlainBlank c).all beforeSign

theorem foldl_signAfter (b : List Char) : b.foldl signAfter true = signPlace b := by
  have h : ∀ l : List Char, l.reverse.foldl signAfter true =
      (l.find? fun c => !isPlainBlank c).all beforeSign := by
    intro l
    induction l with
    | nil => rfl
    | cons c l ih =>
      rw [List.reverse_cons, List.foldl_append, List.foldl_cons, List.foldl_nil, ih]
      by_cases hc : isPlainBlank c = true
      · simp [signAfter, hc]
      · simp [signAfter, hc]
  have := h b.reverse
  rwa [List.reverse_reverse] at this

theorem signPlace_concat (b : List Char) (c : Char) :
    signPlace (b ++ [c]) = signAfter (signPlace b) c := by
  rw [← foldl_signAfter, ← foldl_signAfter, List.foldl_append]
  rfl

theorem signPlace_symbol (b : List Char) (op : Operator) : signPlace (b ++ op.chars) = true := by
  have := signs_symbol op (b.foldl signAfter true) true
  rw [signs, List.foldl_map] at this
  rw [← foldl_signAfter, List.foldl_append]
  exact this

/-- The operator may stand behind this text. -/
structure Stands (op : Operator) (b : List Char) : Prop where
  outside : Nested b
  inner : b ≠ []
  infixed : op.isSign = true → signPlace b = false

/-- The cut of a text that stands behind `b`. -/
inductive CutsInto (ops : Level) : List Char → List Char → Cut → Prop
  | done {b : List Char} : CutsInto ops b [] ⟨[], []⟩
  | symbol {b t : List Char} {op : Operator} {k : Cut} : op ∈ ops → Stands op b →
      CutsInto ops (b ++ op.chars) t k → CutsInto ops b (op.chars ++ t) (k.start op)
  | char {b t : List Char} {c : Char} {k : Cut} :
      (∀ op ∈ ops, op.chars <+: c :: t → ¬ Stands op b) →
      CutsInto ops (b ++ [c]) t k → CutsInto ops b (c :: t) (k.push c)

/-! ## Symbols in marked texts -/

theorem balanced_symbol (op : Operator) : Balanced op.chars :=
  balanced_of_flat fun _ hc => isFlat_of_mem_chars hc

theorem marked_symbol (op : Operator) (t : List Char) :
    marked (op.chars ++ t) = op.chars.map (·, true) ++ marked t := by
  rw [marked_append (balanced_symbol op), marked_of_flat fun c hc => isFlat_of_mem_chars hc]

theorem symbolAt_symbol (cs : List Char) (m : Marked) :
    symbolAt cs (cs.map (·, true) ++ m) = true := by
  induction cs with
  | nil => simp [symbolAt]
  | cons c cs ih => simp [symbolAt, ih]

/-- A symbol at the top stands where the scan is outside everything. -/
theorem symbolAt_markedFrom {s : Scan} {t : List Char} {op : Operator}
    (h : symbolAt op.chars (markedFrom s t) = true) : s = .start ∧ ∃ u, t = op.chars ++ u := by
  obtain ⟨m, hm⟩ := symbolAt_eq_true h
  have ht := map_fst_markedFrom s t
  rw [hm, List.map_append, map_fst_map] at ht
  refine ⟨?_, m.map Prod.fst, ht.symm⟩
  cases t with
  | nil => exact absurd (List.append_eq_nil_iff.1 ht).1 op.chars_ne_nil
  | cons d t =>
    have htop : s.isTop d = true := (symbolAt_cons h).1
    by_contra hs
    rw [isTop_of_ne_start hs] at htop
    cases htop

theorem operatorAt_of_mem {ops : Level} (hl : ops ∈ levels) {op : Operator} (h : op ∈ ops)
    {sign : Bool} (hs : op.isSign = true → sign = false) (m : Marked) :
    operatorAt ops sign (op.chars.map (·, true) ++ m) = some op := by
  simp only [levels, List.mem_cons, List.not_mem_nil, or_false] at hl
  obtain rfl | rfl | rfl | rfl | rfl | rfl | rfl := hl <;>
    simp only [List.mem_cons, List.not_mem_nil, or_false] at h
  · subst h; rfl
  · subst h; rfl
  · obtain rfl | rfl := h <;> rfl
  · obtain rfl | rfl := h <;> rfl
  · obtain rfl | rfl := h <;> rfl
  · obtain rfl | rfl := h <;> cases hs rfl <;> rfl
  · obtain rfl | rfl | rfl := h <;> rfl

/-! ## The cut -/

section
variable {ops : Level} {b t : List Char} {s : Scan}

theorem not_stands_of_none (h : Scan.start.run b = some s)
    (ho : operatorAt ops (signPlace b) (markedFrom s t) = none) {op : Operator} (hop : op ∈ ops)
    (ht : op.chars <+: t) : ¬ Stands op b := by
  intro hst
  obtain ⟨u, rfl⟩ := ht
  have hs := hst.outside.balanced
  rw [Balanced, h] at hs
  cases hs
  have hsym : symbolAt op.chars (marked (op.chars ++ u)) = true := by
    rw [marked_symbol]
    exact symbolAt_symbol _ _
  obtain ⟨hsg, hp⟩ := operatorAt_eq_none.1 ho op hop hsym
  rw [hst.infixed hsg] at hp
  cases hp

theorem stands_of_some (hb : b ≠ []) (h : Scan.start.run b = some s) {op : Operator}
    (ho : operatorAt ops (signPlace b) (markedFrom s t) = some op) :
    op ∈ ops ∧ Stands op b ∧ s = .start ∧ ∃ u, t = op.chars ++ u := by
  obtain ⟨hop, hsg, m, hm⟩ := operatorAt_eq_some ho
  have hsym : symbolAt op.chars (markedFrom s t) = true := by
    rw [hm]
    exact symbolAt_symbol _ _
  obtain ⟨rfl, hu⟩ := symbolAt_markedFrom hsym
  exact ⟨hop, ⟨balanced_iff_nested.1 h, hb, hsg⟩, rfl, hu⟩

theorem cutFrom_symbol {op : Operator} {u : List Char}
    (ho : operatorAt ops (signPlace b) (marked (op.chars ++ u)) = some op) :
    cutFrom ops (signPlace b) 0 (marked (op.chars ++ u)) =
      (cutFrom ops (signPlace (b ++ op.chars)) 0 (marked u)).start op := by
  rw [marked_symbol] at ho ⊢
  rw [cutFrom_of_some ho, signPlace_symbol]

theorem cutFrom_char {c : Char} {r : List Char} {s' : Scan} (hs : s.step c = some s')
    (ho : operatorAt ops (signPlace b) (markedFrom s (c :: r)) = none) :
    cutFrom ops (signPlace b) 0 (markedFrom s (c :: r)) =
      (cutFrom ops (signPlace (b ++ [c])) 0 (markedFrom s' r)).push c := by
  rw [markedFrom] at ho ⊢
  rw [cutFrom_of_none ho, hs, Option.getD_some, signPlace_concat]

theorem cut_cons {c : Char} {r : List Char} {s' : Scan} (hs : Scan.start.step c = some s') :
    cut ops (marked (c :: r)) = (cutFrom ops (signPlace ([] ++ [c])) 0 (markedFrom s' r)).push c := by
  rw [marked, markedFrom, cut, hs, Option.getD_some, signPlace_concat]
  rfl

theorem run_concat {c : Char} {s' : Scan} (h : Scan.start.run b = some s) (hs : s.step c = some s') :
    Scan.start.run (b ++ [c]) = some s' := by
  rw [Scan.run_append_of h, Scan.run_cons, hs]
  rfl

end

theorem cutsInto_cutFrom {ops : Level} {b t : List Char} {s : Scan} (hb : b ≠ [])
    (h : Scan.start.run b = some s) (ht : s.run t = some .start) :
    CutsInto ops b t (cutFrom ops (signPlace b) 0 (markedFrom s t)) := by
  -- On the length of the text, since the scan goes over a symbol at once.
  match t with
  | [] => exact .done
  | c :: r =>
    cases ho : operatorAt ops (signPlace b) (markedFrom s (c :: r)) with
    | none =>
      rw [Scan.run_cons] at ht
      obtain ⟨s', hs, hr⟩ := Option.bind_eq_some_iff.1 ht
      rw [cutFrom_char hs ho]
      apply CutsInto.char
      · intro op hop hpre
        exact not_stands_of_none h ho hop hpre
      · exact cutsInto_cutFrom (by simp) (run_concat h hs) hr
    | some op =>
      obtain ⟨hop, hst, rfl, u, hu⟩ := stands_of_some hb h ho
      have hlen : u.length < (c :: r).length := by
        have := op.length_pos
        rw [hu, List.length_append]
        omega
      rw [hu] at ho ht ⊢
      have hr : Balanced u := (balanced_symbol op).append_iff.1 ht
      have hrun : Scan.start.run (b ++ op.chars) = some .start := Balanced.append h (balanced_symbol op)
      change CutsInto ops b _ (cutFrom ops _ 0 (marked _))
      rw [cutFrom_symbol ho]
      exact .symbol hop hst (cutsInto_cutFrom (by simp [hb]) hrun hr)
termination_by t.length
decreasing_by
  · exact Nat.lt_succ_self r.length
  · exact hlen

theorem cutsInto_cut {ops : Level} {t : List Char} (h : Balanced t) :
    CutsInto ops [] t (cut ops (marked t)) := by
  cases t with
  | nil => exact .done
  | cons c r =>
    rw [Balanced, Scan.run_cons] at h
    obtain ⟨s, hs, hr⟩ := Option.bind_eq_some_iff.1 h
    rw [cut_cons hs]
    apply CutsInto.char
    · intro op _ _ hst
      exact hst.inner rfl
    · exact cutsInto_cutFrom (by simp) (run_concat rfl hs) hr

theorem CutsInto.eq_cutFrom {ops : Level} (hl : ops ∈ levels) {b t : List Char} {k : Cut}
    (h : CutsInto ops b t k) (hb : b ≠ []) {s : Scan} (hs : Scan.start.run b = some s)
    (ht : s.run t = some .start) : k = cutFrom ops (signPlace b) 0 (markedFrom s t) := by
  induction h generalizing s with
  | done => rfl
  | @symbol b t op k hop hst _ ih =>
    have e := hst.outside.balanced
    rw [Balanced, hs] at e
    cases e
    have hr : Balanced t := (balanced_symbol op).append_iff.1 ht
    have hat : operatorAt ops (signPlace b) (marked (op.chars ++ t)) = some op := by
      rw [marked_symbol]
      exact operatorAt_of_mem hl hop hst.infixed _
    change _ = cutFrom ops _ 0 (marked _)
    rw [cutFrom_symbol hat]
    exact congrArg (Cut.start op) (ih (by simp [hb]) (Balanced.append hs (balanced_symbol op)) hr)
  | @char b t c k hno _ ih =>
    rw [Scan.run_cons] at ht
    obtain ⟨s', hs', hr⟩ := Option.bind_eq_some_iff.1 ht
    have hat : operatorAt ops (signPlace b) (markedFrom s (c :: t)) = none := by
      cases ho : operatorAt ops (signPlace b) (markedFrom s (c :: t)) with
      | none => rfl
      | some op =>
        obtain ⟨hop, hst, -, u, hu⟩ := stands_of_some hb hs ho
        exact absurd hst (hno op hop ⟨u, hu.symm⟩)
    rw [cutFrom_char hs' hat]
    exact congrArg (Cut.push c) (ih (by simp) (run_concat hs hs') hr)

/-- The cut of a balanced text is the one that `CutsInto` describes. -/
theorem cutsInto_iff {ops : Level} (hl : ops ∈ levels) {t : List Char} (ht : Balanced t) {k : Cut} :
    CutsInto ops [] t k ↔ k = cut ops (marked t) := by
  constructor
  · intro h
    cases h with
    | done => rfl
    | symbol _ hst _ => exact absurd rfl hst.inner
    | @char _ r c k _ h =>
      rw [Balanced, Scan.run_cons] at ht
      obtain ⟨s, hs, hr⟩ := Option.bind_eq_some_iff.1 ht
      rw [cut_cons hs]
      exact congrArg (Cut.push c) (h.eq_cutFrom hl (by simp) (run_concat rfl hs) hr)
  · rintro rfl
    exact cutsInto_cut ht

/-! ## The pieces -/

namespace Cut

def pieces (k : Cut) : List (List Char) := k.head :: k.tail.map Prod.snd

theorem join_cons (h : List Char) (op : Operator) (t : List Char) (r : List (Operator × List Char)) :
    join ⟨h, (op, t) :: r⟩ = h ++ (op.chars ++ join ⟨t, r⟩) := by
  simp [join]

end Cut

namespace CutsInto

variable {ops : Level} {b t : List Char} {k : Cut}

theorem join_eq (h : CutsInto ops b t k) : k.join = t := by
  induction h with
  | done => rfl
  | symbol _ _ _ ih => rw [join_start, ih]
  | char _ _ ih => rw [join_push, ih]

theorem mem_level (h : CutsInto ops b t k) : ∀ p ∈ k.tail, p.1 ∈ ops := by
  induction h with
  | done => simp
  | symbol hop _ _ ih =>
    intro p hp
    rcases List.mem_cons.1 hp with rfl | hp
    · exact hop
    · exact ih p hp
  | char _ _ ih => exact ih

/-- `x` is what the first piece has so far. -/
theorem balanced_pieces {a x : List Char} (h : CutsInto ops (a ++ x) t k) (ha : Balanced a)
    (ht : Balanced (a ++ x ++ t)) : Balanced (x ++ k.head) ∧ ∀ p ∈ k.tail, Balanced p.2 := by
  generalize hb : a ++ x = b at h ht
  induction h generalizing a x with
  | @done b =>
    rw [← hb, List.append_nil] at ht
    refine ⟨?_, by simp⟩
    rw [List.append_nil]
    exact ha.append_iff.1 ht
  | @symbol b t op k _ hst _ ih =>
    have hb' : Balanced b := hst.outside.balanced
    have hop := hb'.append (balanced_symbol op)
    obtain ⟨hh, htl⟩ := ih hop (List.append_nil _) (by rwa [List.append_assoc])
    refine ⟨?_, ?_⟩
    · rw [← hb] at hb'
      simpa [Cut.start] using ha.append_iff.1 hb'
    · intro p hp
      rcases List.mem_cons.1 hp with rfl | hp
      · exact hh
      · exact htl p hp
  | @char b t c k _ _ ih =>
    have := ih (x := x ++ [c]) ha (by rw [← hb, List.append_assoc]) (by simpa using ht)
    simpa [Cut.push] using this

end CutsInto

section
variable {ops : Level} {t : List Char} (ht : Balanced t)
include ht

theorem CutsInto.balanced_of_mem {k : Cut} (h : CutsInto ops [] t k) : ∀ x ∈ k.pieces, Balanced x := by
  have hb := balanced_pieces (a := []) (x := []) h rfl ht
  intro x hx
  rcases List.mem_cons.1 hx with rfl | hx
  · exact hb.1
  · obtain ⟨p, hp, rfl⟩ := List.mem_map.1 hx
    exact hb.2 p hp

theorem join_cut : (cut ops (marked t)).join = t := (cutsInto_cut ht).join_eq

theorem mem_level_of_mem_cut : ∀ p ∈ (cut ops (marked t)).tail, p.1 ∈ ops := (cutsInto_cut ht).mem_level

theorem balanced_of_mem_pieces : ∀ x ∈ (cut ops (marked t)).pieces, Balanced x :=
  (cutsInto_cut ht).balanced_of_mem ht

end

/-! ## One piece among the others -/

/-- A cut with one piece left out. -/
structure Place where
  before : List (List Char × Operator)
  after : List (Operator × List Char)

namespace Place

def fill (P : Place) (x : List Char) : Cut :=
  P.before.foldr (fun p k => ⟨p.1, (p.2, k.head) :: k.tail⟩) ⟨x, P.after⟩

/-- The text on the left of the piece. -/
def left (P : Place) : List Char := P.before.flatMap fun p => p.1 ++ p.2.chars

/-- The text on the right of the piece. -/
def right (P : Place) : List Char := P.after.flatMap fun p => p.1.chars ++ p.2

def others (P : Place) : List (List Char) := P.before.map Prod.fst ++ P.after.map Prod.snd

theorem fill_nil (a : List (Operator × List Char)) (x : List Char) :
    fill ⟨[], a⟩ x = ⟨x, a⟩ := rfl

theorem fill_cons (h : List Char) (op : Operator) (b : List (List Char × Operator))
    (a : List (Operator × List Char)) (x : List Char) :
    fill ⟨(h, op) :: b, a⟩ x = ⟨h, (op, (fill ⟨b, a⟩ x).head) :: (fill ⟨b, a⟩ x).tail⟩ := rfl

theorem left_cons (h : List Char) (op : Operator) (b : List (List Char × Operator))
    (a : List (Operator × List Char)) :
    left ⟨(h, op) :: b, a⟩ = h ++ (op.chars ++ left ⟨b, a⟩) := by
  simp [left]

theorem join_fill (P : Place) (x : List Char) : (P.fill x).join = P.left ++ (x ++ P.right) := by
  obtain ⟨b, a⟩ := P
  induction b with
  | nil => rfl
  | cons p b ih =>
    obtain ⟨h, op⟩ := p
    rw [fill_cons, Cut.join_cons, ih, left_cons]
    simp [right]

theorem mem_pieces_fill {P : Place} {x y : List Char} :
    y ∈ (P.fill x).pieces ↔ y = x ∨ y ∈ P.others := by
  obtain ⟨b, a⟩ := P
  induction b with
  | nil => simp [fill_nil, Cut.pieces, others]
  | cons p b ih =>
    obtain ⟨h, op⟩ := p
    have hp : y ∈ (fill ⟨(h, op) :: b, a⟩ x).pieces ↔ y = h ∨ y ∈ (fill ⟨b, a⟩ x).pieces := by
      simp [fill_cons, Cut.pieces]
    rw [hp, ih]
    simp only [others, List.map_cons, List.cons_append, List.mem_cons]
    exact or_left_comm

theorem exists_fill {k : Cut} {x : List Char} (h : x ∈ k.pieces) : ∃ P : Place, k = P.fill x := by
  obtain ⟨hd, tl⟩ := k
  induction tl generalizing hd with
  | nil =>
    simp only [Cut.pieces, List.map_nil, List.mem_singleton] at h
    exact ⟨⟨[], []⟩, by rw [h, fill_nil]⟩
  | cons p tl ih =>
    obtain ⟨op, t⟩ := p
    rcases List.mem_cons.1 h with rfl | h
    · exact ⟨⟨[], (op, t) :: tl⟩, rfl⟩
    · obtain ⟨P, hP⟩ := ih t h
      refine ⟨⟨(hd, op) :: P.before, P.after⟩, ?_⟩
      rw [fill_cons, ← hP]

theorem balanced_left {P : Place} (h : ∀ y ∈ P.others, Balanced y) : Balanced P.left := by
  obtain ⟨b, a⟩ := P
  induction b with
  | nil => rfl
  | cons p b ih =>
    obtain ⟨t, op⟩ := p
    rw [left_cons]
    have hb : ∀ y ∈ others ⟨b, a⟩, Balanced y := fun y hy => h y (List.mem_cons_of_mem _ hy)
    exact (h t List.mem_cons_self).append ((balanced_symbol op).append (ih hb))

theorem exists_of_mem {ops : Level} {t x : List Char} (ht : Balanced t)
    (hx : x ∈ (cut ops (marked t)).pieces) :
    ∃ P : Place, cut ops (marked t) = P.fill x ∧ P.left ++ (x ++ P.right) = t ∧ Balanced P.left := by
  have hall : ∀ y ∈ (cut ops (marked t)).pieces, Balanced y := balanced_of_mem_pieces ht
  have hj : (cut ops (marked t)).join = t := join_cut ht
  obtain ⟨P, hP⟩ := exists_fill hx
  rw [hP] at hall hj
  rw [join_fill] at hj
  refine ⟨P, hP, hj, balanced_left ?_⟩
  intro y hy
  exact hall y (mem_pieces_fill.2 (.inr hy))

/-- Where a text that is not empty stands in a cut, there it stands in one piece only. -/
theorem fill_inj {P P' : Place} {a a' b b' o : List Char} (ho : o ≠ [])
    (h : P.fill (a ++ (o ++ b)) = P'.fill (a' ++ (o ++ b'))) (hl : P.left ++ a = P'.left ++ a') :
    P = P' ∧ a = a' ∧ b = b' := by
  have hlen : 0 < o.length := List.length_pos_iff.2 ho
  obtain ⟨l, r⟩ := P
  obtain ⟨l', r'⟩ := P'
  induction l generalizing l' with
  | nil =>
    cases l' with
    | nil =>
      replace hl : a = a' := hl
      subst hl
      rw [fill_nil, fill_nil, Cut.mk.injEq, List.append_cancel_left_eq, List.append_cancel_left_eq] at h
      obtain ⟨rfl, rfl⟩ := h
      exact ⟨rfl, rfl, rfl⟩
    | cons p l' =>
      obtain ⟨t, op⟩ := p
      rw [fill_nil, fill_cons, Cut.mk.injEq] at h
      replace hl : a = left ⟨(t, op) :: l', r'⟩ ++ a' := hl
      rw [left_cons, ← h.1] at hl
      have := congrArg List.length hl
      simp only [List.length_append] at this
      omega
  | cons p l ih =>
    obtain ⟨t, op⟩ := p
    cases l' with
    | nil =>
      rw [fill_nil, fill_cons, Cut.mk.injEq] at h
      replace hl : left ⟨(t, op) :: l, r⟩ ++ a = a' := hl
      rw [left_cons, h.1] at hl
      have := congrArg List.length hl
      simp only [List.length_append] at this
      omega
    | cons p' l' =>
      obtain ⟨t', op'⟩ := p'
      rw [fill_cons, fill_cons, Cut.mk.injEq, List.cons.injEq, Prod.mk.injEq] at h
      obtain ⟨rfl, ⟨rfl, hh⟩, ht⟩ := h
      simp only [left_cons, List.append_assoc, List.append_cancel_left_eq] at hl
      have hk : fill ⟨l, r⟩ (a ++ (o ++ b)) = fill ⟨l', r'⟩ (a' ++ (o ++ b')) := by
        rw [Cut.mk.injEq]
        exact ⟨hh, ht⟩
      obtain ⟨e, ea, eb⟩ := ih l' hk hl
      cases e
      exact ⟨rfl, ea, eb⟩

/-- A cut that goes on with another one: its last piece is continued by the first of the other. -/
theorem append_eq_fill (k : Cut) : ∃ l x, k = fill ⟨l, []⟩ x ∧
    ∀ k' : Cut, k.append k' = fill ⟨l, k'.tail⟩ (x ++ k'.head) := by
  obtain ⟨h, t⟩ := k
  induction t generalizing h with
  | nil => exact ⟨[], h, rfl, fun k' => rfl⟩
  | cons p t ih =>
    obtain ⟨op, y⟩ := p
    obtain ⟨l, x, e, ha⟩ := ih y
    refine ⟨(h, op) :: l, x, ?_, ?_⟩
    · rw [fill_cons, ← e]
    · intro k'
      rw [fill_cons, ← ha k', Cut.append_cons]

end Place

end Stencil
