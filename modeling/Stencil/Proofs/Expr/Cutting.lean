import Stencil.Proofs.Expr.Marking

/-!
# Cuts of texts put together

The cut of two marked texts in a row is the cut of the first, whose last operand goes on with the
cut of the second, as long as no symbol lies across the seam. A text in which nothing is found is
one operand, a solid one.
-/

namespace Stencil

namespace Cut

def empty : Cut := ⟨[], []⟩

/-- The last operand goes on with the first operand of `k'`. -/
def graft (h : List Char) : List (Operator × List Char) → Cut → Cut
  | [], k' => ⟨h ++ k'.head, k'.tail⟩
  | (op, t) :: r, k' => (graft t r k').start op |> fun k => ⟨h ++ k.head, k.tail⟩

def append (k k' : Cut) : Cut := graft k.head k.tail k'

theorem append_lone (t : List Char) (k : Cut) : append ⟨t, []⟩ k = ⟨t ++ k.head, k.tail⟩ := rfl

theorem append_cons (h : List Char) (op : Operator) (t : List Char) (r : List (Operator × List Char))
    (k : Cut) :
    append ⟨h, (op, t) :: r⟩ k = ⟨h, (op, (append ⟨t, r⟩ k).head) :: (append ⟨t, r⟩ k).tail⟩ := by
  simp [append, graft, start]

@[simp] theorem push_append (c : Char) (k k' : Cut) : (k.push c).append k' = (k.append k').push c := by
  obtain ⟨h, r⟩ := k
  cases r with
  | nil => rfl
  | cons p r => rw [push, append_cons, append_cons]; rfl

@[simp] theorem start_append (op : Operator) (k k' : Cut) :
    (k.start op).append k' = (k.append k').start op := by
  rw [start, append_cons]; rfl

end Cut

/-! ## Signs -/

/-- Whether a plus or minus would be a sign behind the text. -/
def signs (sign : Bool) (m : Marked) : Bool := m.foldl (fun s p => signAfter s p.1) sign

@[simp] theorem signs_nil (sign : Bool) : signs sign [] = sign := rfl

@[simp] theorem signs_cons (sign : Bool) (p : Char × Bool) (m : Marked) :
    signs sign (p :: m) = signs (signAfter sign p.1) m := rfl

theorem signs_append (sign : Bool) (m m' : Marked) :
    signs sign (m ++ m') = signs (signs sign m) m' := List.foldl_append

/-- Behind a symbol stands an operand, and that may have a sign. -/
theorem signs_symbol (op : Operator) (sign : Bool) (b : Bool) :
    signs sign (op.chars.map (·, b)) = true := by
  cases op <;> rfl

theorem signAfter_of_not_blank {c : Char} (h : isPlainBlank c = false) (sign : Bool) :
    signAfter sign c = beforeSign c := by
  simp [signAfter, h]

/-! ## Symbols -/

theorem symbolAt_eq_true {cs : List Char} {m : Marked} (h : symbolAt cs m = true) :
    ∃ m', m = cs.map (·, true) ++ m' := by
  induction cs generalizing m with
  | nil => exact ⟨m, rfl⟩
  | cons c cs ih =>
    match m with
    | [] => cases h
    | (d, top) :: m =>
      simp only [symbolAt, Bool.and_eq_true, beq_iff_eq] at h
      obtain ⟨⟨rfl, rfl⟩, h⟩ := h
      obtain ⟨m', rfl⟩ := ih h
      exact ⟨m', rfl⟩

theorem operatorAt_eq_none {ops : Level} {sign : Bool} {m : Marked} :
    operatorAt ops sign m = none ↔
      ∀ op ∈ ops, symbolAt op.chars m = true → op.isSign = true ∧ sign = true := by
  simp [operatorAt, List.find?_eq_none]

theorem operatorAt_eq_some {ops : Level} {sign : Bool} {m : Marked} {op : Operator}
    (h : operatorAt ops sign m = some op) :
    op ∈ ops ∧ (op.isSign = true → sign = false) ∧ ∃ m', m = op.chars.map (·, true) ++ m' := by
  have hp := List.find?_some h
  simp only [Bool.and_eq_true, Bool.not_eq_true', Bool.and_eq_false_imp] at hp
  exact ⟨List.mem_of_find?_eq_some h, hp.2, symbolAt_eq_true hp.1⟩

theorem beforeSign_of_mem_chars {op : Operator} {c : Char} (h : c ∈ op.chars) : beforeSign c = true := by
  have hall : op.chars.all beforeSign = true := by cases op <;> rfl
  exact List.all_eq_true.1 hall c h

theorem Operator.exists_chars (op : Operator) : ∃ c r, op.chars = c :: r := by
  cases op <;> exact ⟨_, _, rfl⟩

theorem Operator.chars_ne_nil (op : Operator) : op.chars ≠ [] := by
  obtain ⟨c, r, hc⟩ := op.exists_chars
  simp [hc]

theorem Operator.length_pos (op : Operator) : 0 < op.chars.length :=
  List.length_pos_iff.2 op.chars_ne_nil

/-- A symbol starts at a character outside brackets and quotes, its first one. -/
theorem symbolAt_cons {op : Operator} {c : Char} {top : Bool} {m : Marked}
    (h : symbolAt op.chars ((c, top) :: m) = true) : top = true ∧ ∃ r, op.chars = c :: r := by
  obtain ⟨d, r, hd⟩ := op.exists_chars
  rw [hd, symbolAt] at h
  simp only [Bool.and_eq_true, beq_iff_eq] at h
  obtain ⟨⟨rfl, htop⟩, -⟩ := h
  exact ⟨htop, r, hd⟩

theorem Operator.chars_form (op : Operator) :
    (∃ x, op.chars = [x]) ∨ ∃ x y, op.chars = [x, y] := by
  cases op <;> simp [Operator.chars]

/-- A symbol that ends the text is whole there, whatever follows. -/
theorem symbolAt_append_left {op : Operator} {m : Marked} {p : Char × Bool} (hp : m.getLast? = some p)
    (hc : beforeSign p.1 = false) (m' : Marked) :
    symbolAt op.chars (m ++ m') = symbolAt op.chars m := by
  -- A symbol has at most two characters, so it can cross the seam from the last one only.
  match m with
  | [] => cases hp
  | [(c, top)] =>
    cases hp
    replace hc : beforeSign c = false := hc
    obtain ⟨d, r, hd⟩ := op.exists_chars
    have hne : d ≠ c := fun e => by
      rw [← e, beforeSign_of_mem_chars (hd ▸ List.mem_cons_self)] at hc; cases hc
    simp [hd, symbolAt, beq_eq_false_iff_ne.2 hne]
  | (c, top) :: (d, top') :: m => cases op <;> simp [Operator.chars, symbolAt]

/-! ## Seams -/

/-- No symbol starts at the last character. -/
def Seam (m : Marked) : Prop := ∀ p, m.getLast? = some p → beforeSign p.1 = false

theorem Seam.append {m m' : Marked} (h : Seam m') (hne : m' ≠ []) : Seam (m ++ m') := by
  intro p hp
  rw [List.getLast?_append, List.getLast?_eq_some_getLast hne, Option.some_or] at hp
  exact h p (by rw [List.getLast?_eq_some_getLast hne, hp])

theorem cutFrom_skip (ops : Level) (sign : Bool) (n : Nat) (m : Marked) :
    cutFrom ops sign n m = cutFrom ops sign 0 (m.drop n) := by
  induction n generalizing m with
  | zero => rfl
  | succ n ih =>
    cases m with
    | nil => simp [cutFrom]
    | cons p m => rw [cutFrom, ih, List.drop_succ_cons]

theorem cutFrom_of_some {ops : Level} {sign : Bool} {op : Operator} {m : Marked}
    (h : operatorAt ops sign (op.chars.map (·, true) ++ m) = some op) :
    cutFrom ops sign 0 (op.chars.map (·, true) ++ m) = (cutFrom ops true 0 m).start op := by
  obtain ⟨c, r, hc⟩ := op.exists_chars
  rw [hc, List.map_cons, List.cons_append] at h ⊢
  rw [cutFrom, h]
  simp [hc, cutFrom_skip]

theorem cutFrom_of_none {ops : Level} {sign : Bool} {p : Char × Bool} {m : Marked}
    (h : operatorAt ops sign (p :: m) = none) :
    cutFrom ops sign 0 (p :: m) = (cutFrom ops (signAfter sign p.1) 0 m).push p.1 := by
  rw [cutFrom, h]

/-- No symbol lies across the seam between the two texts. -/
def Apart (m m' : Marked) : Prop :=
  ∀ s, s ≠ [] → s <:+ m → ∀ op : Operator, symbolAt op.chars (s ++ m') = symbolAt op.chars s

theorem Apart.of_suffix {m s m' : Marked} (h : Apart m m') (hs : s <:+ m) : Apart s m' :=
  fun r hr hrs => h r hr (hrs.trans hs)

theorem Apart.operatorAt {m m' : Marked} (h : Apart m m') (hm : m ≠ []) (ops : Level) (sign : Bool) :
    operatorAt ops sign (m ++ m') = operatorAt ops sign m := by
  unfold Stencil.operatorAt
  simp only [h m hm List.suffix_rfl]

theorem Seam.of_suffix {m s : Marked} (h : Seam m) (hs : s <:+ m) : Seam s := by
  obtain ⟨r, rfl⟩ := hs
  intro p hp
  refine h p ?_
  rw [List.getLast?_append, hp]
  rfl

theorem Seam.apart {m : Marked} (h : Seam m) (m' : Marked) : Apart m m' := by
  intro s hne hs op
  have hl := List.getLast?_eq_some_getLast hne
  exact symbolAt_append_left hl (h.of_suffix hs _ hl) m'

/-- A symbol of two characters may end with this one. -/
def endsSymbol (c : Char) : Bool := "|&=".toList.contains c

theorem endsSymbol_of_chars {op : Operator} {x y : Char} (h : op.chars = [x, y]) :
    endsSymbol y = true := by
  cases op <;> cases h <;> rfl

/-- A symbol cannot end at the first character of the second text. -/
theorem apart_of_head {m' : Marked}
    (h : ∀ c top r, m' = (c, top) :: r → top = false ∨ endsSymbol c = false) (m : Marked) :
    Apart m m' := by
  intro s hne _ op
  match s, hne with
  | [(d, b)], _ =>
    cases m' with
    | nil => rfl
    | cons p r =>
      obtain ⟨c, top⟩ := p
      obtain ⟨x, e⟩ | ⟨x, y, e⟩ := op.chars_form
      · simp [e, symbolAt]
      · have hc : (y == c && top) = false := by
          rcases h c top r rfl with rfl | hs
          · simp
          · have hy : y ≠ c := by
              rintro rfl
              rw [endsSymbol_of_chars e] at hs
              cases hs
            simp [hy]
        simp [e, symbolAt, hc]
  | (d, b) :: (d', b') :: s, _ =>
    obtain ⟨x, e⟩ | ⟨x, y, e⟩ := op.chars_form <;> simp [e, symbolAt]

theorem cutFrom_append_of_apart {ops : Level} {sign : Bool} {m m' : Marked} (h : Apart m m') :
    cutFrom ops sign 0 (m ++ m') =
      (cutFrom ops sign 0 m).append (cutFrom ops (signs sign m) 0 m') := by
  -- On the length of the text, since the scan goes over a symbol at once.
  match m with
  | [] => rfl
  | p :: r =>
    have hat := h.operatorAt (List.cons_ne_nil p r) ops sign
    cases ho : operatorAt ops sign (p :: r) with
    | none =>
      rw [ho, List.cons_append] at hat
      rw [cutFrom_of_none ho, List.cons_append, cutFrom_of_none hat,
        cutFrom_append_of_apart (h.of_suffix (List.suffix_cons p r)), Cut.push_append, signs_cons]
    | some op =>
      rw [ho] at hat
      obtain ⟨-, -, s, hs⟩ := operatorAt_eq_some ho
      have hlen : s.length < (p :: r).length := by
        have := op.length_pos
        rw [hs, List.length_append, List.length_map]
        omega
      have hd : Apart s m' := h.of_suffix ⟨_, hs.symm⟩
      rw [hs] at ho hat ⊢
      rw [List.append_assoc] at hat ⊢
      rw [cutFrom_of_some ho, cutFrom_of_some hat, cutFrom_append_of_apart hd, Cut.start_append,
        signs_append, signs_symbol]
termination_by m.length
decreasing_by
  · exact Nat.lt_succ_self r.length
  · exact hlen

theorem cutFrom_append {ops : Level} {sign : Bool} {m : Marked} (h : Seam m) (m' : Marked) :
    cutFrom ops sign 0 (m ++ m') =
      (cutFrom ops sign 0 m).append (cutFrom ops (signs sign m) 0 m') :=
  cutFrom_append_of_apart (h.apart m')

/-! ## Solid texts -/

/-- No operator of the level is found in the text. -/
def Solid (ops : Level) (sign : Bool) (m : Marked) : Prop :=
  cutFrom ops sign 0 m = ⟨m.map Prod.fst, []⟩

theorem Solid.cons {ops : Level} {sign : Bool} {p : Char × Bool} {m : Marked}
    (h : operatorAt ops sign (p :: m) = none) (hm : Solid ops (signAfter sign p.1) m) :
    Solid ops sign (p :: m) := by
  unfold Solid
  rw [cutFrom_of_none h, hm]
  rfl

theorem Solid.append {ops : Level} {sign : Bool} {m m' : Marked} (h : Solid ops sign m) (hs : Seam m)
    (h' : Solid ops (signs sign m) m') : Solid ops sign (m ++ m') := by
  unfold Solid
  rw [cutFrom_append hs, h, h', Cut.append_lone, List.map_append]

theorem operatorAt_of_hidden (ops : Level) (sign : Bool) (c : Char) (m : Marked) :
    operatorAt ops sign ((c, false) :: m) = none := by
  refine operatorAt_eq_none.2 fun op _ h => ?_
  cases (symbolAt_cons h).1

theorem solid_of_hidden (ops : Level) (sign : Bool) (t : List Char) :
    Solid ops sign (t.map (·, false)) := by
  induction t generalizing sign with
  | nil => rfl
  | cons c t ih => exact Solid.cons (operatorAt_of_hidden ops sign c _) (ih _)

theorem operatorAt_of_not_beforeSign {c : Char} (h : beforeSign c = false) (ops : Level) (sign top : Bool)
    (m : Marked) : operatorAt ops sign ((c, top) :: m) = none := by
  refine operatorAt_eq_none.2 fun op _ hs => ?_
  obtain ⟨-, r, hr⟩ := symbolAt_cons hs
  rw [beforeSign_of_mem_chars (hr ▸ List.mem_cons_self)] at h
  cases h

theorem solid_of_not_beforeSign {t : List Char} (h : ∀ c ∈ t, beforeSign c = false) (ops : Level)
    (sign top : Bool) : Solid ops sign (t.map (·, top)) := by
  induction t generalizing sign with
  | nil => rfl
  | cons c t ih =>
    exact Solid.cons (operatorAt_of_not_beforeSign (h c List.mem_cons_self) ops sign top _)
      (ih (fun d hd => h d (List.mem_cons_of_mem _ hd)) _)

end Stencil
