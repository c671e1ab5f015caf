import Stencil.Proofs.Expr.Operands

/-!
# Operands and operators in a row

A `Cut` is also a sequence of operands with operators of any levels between them. Where the operands
have no symbols of their own, cutting the text of the sequence level by level only divides the sequence, so
the text is read as the tree of the sequence. White space around the operands has no part in that tree.
-/

namespace Stencil

/-! ## Trees of sequences -/

namespace Cut

/-- What follows the first operand, divided at the operators of a level. -/
def divide (ops : Level) :
    List (Operator × List Char) → List (Operator × List Char) × List (Operator × Cut)
  | [] => ([], [])
  | (op, x) :: r =>
    let p := divide ops r
    if op ∈ ops then ([], (op, ⟨x, p.1⟩) :: p.2) else ((op, x) :: p.1, p.2)

/-- The tree of a sequence, which is divided at the loosest level first and joined from the left. -/
def tree (leaf : List Char → Except Fault Expr) : List Level → Cut → Except Fault Expr
  | [], k => leaf k.head
  | ops :: ls, k => do
    let p := divide ops k.tail
    let left ← tree leaf ls ⟨k.head, p.1⟩
    p.2.foldlM (fun l q => return .binary l q.1 (← tree leaf ls q.2)) left

/-- The sequence without the white space around its operands. -/
def trimmed (k : Cut) : Cut := ⟨Text.trim k.head, k.tail.map fun p => (p.1, Text.trim p.2)⟩

theorem divide_map (f : List Char → List Char) (ops : Level) (r : List (Operator × List Char)) :
    divide ops (r.map fun p => (p.1, f p.2)) =
      ((divide ops r).1.map fun p => (p.1, f p.2),
        (divide ops r).2.map fun q => (q.1, ⟨f q.2.head, q.2.tail.map fun p => (p.1, f p.2)⟩)) := by
  induction r with
  | nil => rfl
  | cons p r ih =>
    obtain ⟨op, x⟩ := p
    by_cases h : op ∈ ops <;> simp [divide, ih, h]

theorem join_head (x : List Char) (r : List (Operator × List Char)) :
    join ⟨x, r⟩ = x ++ join ⟨[], r⟩ := rfl

end Cut

/-! ## Operands without symbols -/

/-- At no level an operator is found in the operand, and none starts at its end. -/
structure Whole (x : List Char) : Prop where
  balanced : Balanced x
  seam : Seam (marked x)
  solid : ∀ ops ∈ levels, Solid ops true (marked (Text.trimStart x))

/-- Behind the operator nothing is found in the operand as long as they are not cut apart. -/
structure Follows (op : Operator) (y : List Char) : Prop where
  head : ∃ c r, y = c :: r ∧ c ≠ '='
  solid : ∀ ops ∈ levels.take (op.rank + 1), Solid ops true (marked y)

/-- A sequence that is read as it is divided; its operators are of rank `j` or more. An operand may be
left out where the next operator binds no tighter than the one before. -/
inductive Written (j : Nat) : List Char → List (Operator × List Char) → Prop
  | last {x : List Char} : Whole x → Written j x []
  | next {x y : List Char} {op : Operator} {r : List (Operator × List Char)} : Whole x →
      (op.isSign = true → signPlace x = false) → j ≤ op.rank → Follows op y →
      (Text.trimStart y = [] → ∀ p ∈ r.head?, p.1.rank ≤ op.rank) → Written j y r →
      Written j x ((op, y) :: r)

theorem Written.whole {j : Nat} {x : List Char} {r : List (Operator × List Char)} (h : Written j x r) :
    Whole x := by
  cases h with
  | last h => exact h
  | next h _ _ _ _ _ => exact h

theorem Written.balanced {j : Nat} {x : List Char} {r : List (Operator × List Char)}
    (h : Written j x r) : Balanced (Cut.mk x r).join := by
  induction h with
  | @last x h =>
    rw [Cut.join_head]
    exact h.balanced.append rfl
  | @next x y op r h _ _ _ _ _ ih =>
    rw [Cut.join_cons]
    exact h.balanced.append ((balanced_symbol op).append ih)

/-! ## Cutting a sequence -/

theorem mem_of_rank {ops : Level} {op : Operator} (h : levels[op.rank]? = some ops) : op ∈ ops := by
  have hall : ∀ op : Operator, op ∈ levels.getD op.rank [] := by
    intro op
    cases op <;> decide
  have := hall op
  rwa [List.getD_eq_getElem?_getD, h] at this

section
variable {j : Nat} {ops : Level} {ls : List Level} (hd : levels.drop j = ops :: ls)
  {x : List Char} {r : List (Operator × List Char)}
include hd

theorem getElem?_of_drop : levels[j]? = some ops := by
  rw [← List.head?_drop, hd]
  rfl

theorem mem_levels_of_drop : ops ∈ levels := List.mem_of_getElem? (getElem?_of_drop hd)

theorem mem_take_of_drop {i : Nat} (h : j ≤ i) : ops ∈ levels.take (i + 1) := by
  apply List.mem_of_getElem? (i := j)
  rw [List.getElem?_take_of_lt (Nat.lt_succ_of_le h), getElem?_of_drop hd]

/-- At a level the operators of the sequence are those of the level and tighter ones. -/
theorem rank_of_not_mem {op : Operator} (hj : j ≤ op.rank) (h : op ∉ ops) : j < op.rank := by
  have hl := getElem?_of_drop hd
  rcases Nat.lt_or_eq_of_le hj with hlt | rfl
  · exact hlt
  · exact absurd (mem_of_rank hl) h

theorem Written.cutFrom (h : Written j x r) (hx : Solid ops true (marked x)) :
    Stencil.cutFrom ops true 0 (marked (Cut.mk x r).join) =
      ⟨(Cut.mk x (Cut.divide ops r).1).join, (Cut.divide ops r).2.map fun q => (q.1, q.2.join)⟩ := by
  have hmem := mem_levels_of_drop hd
  induction h with
  | @last x h =>
    have hj : (Cut.mk x []).join = x := List.append_nil x
    rw [hj, hx, map_fst_marked]
    simp [Cut.divide, hj]
  | @next x y op r h hs hj hf _ hr ih =>
    have hy := ih (hf.solid ops (mem_take_of_drop hd hj))
    rw [Cut.join_cons, marked_append h.balanced, cutFrom_append h.seam, hx, map_fst_marked,
      signs_marked, marked_symbol]
    by_cases hop : op ∈ ops
    · rw [cutFrom_of_some (operatorAt_of_mem hmem hop hs _), hy]
      simp [Cut.divide, hop, Cut.start, Cut.append_lone, Cut.join]
    · -- The operator is of a tighter level, and its characters stay with the operand before.
      have hlt : ∀ o ∈ ops, o.rank < op.rank := by
        intro o ho
        rw [rank_of_mem_level (getElem?_of_drop hd) ho]
        exact rank_of_not_mem hd hj hop
      obtain ⟨c, s, rfl, hc⟩ := hf.head
      have hp : ∃ p m, marked (Cut.mk (c :: s) r).join = p :: m ∧ p.1 ≠ '=' := ⟨_, _, rfl, hc⟩
      obtain ⟨p, m, e, hp⟩ := hp
      rw [e] at hy ⊢
      rw [cutFrom_tighter hlt hp, hy]
      simp [Cut.divide, hop, Cut.append_lone, Cut.join_cons]

/-- The operand that ends a part of the sequence may be left out, and only that. -/
theorem Written.divide (h : Written j x r) :
    Written (j + 1) x (Cut.divide ops r).1 ∧
      ∀ q ∈ (Cut.divide ops r).2, Written (j + 1) q.2.head q.2.tail ∧
        (Text.trimStart q.2.head = [] → q.2.tail = []) := by
  induction h with
  | last h => exact ⟨.last h, by simp [Cut.divide]⟩
  | @next x y op r h hs hj hf hblank hr ih =>
    obtain ⟨hfirst, hrest⟩ := ih
    by_cases hop : op ∈ ops
    · have hnone : Text.trimStart y = [] → (Cut.divide ops r).1 = [] := by
        intro hy
        cases hr with
        | last _ => rfl
        | @next _ z op' r _ _ hj' _ _ _ =>
          have hle : op'.rank ≤ op.rank := hblank hy (op', z) rfl
          rw [rank_of_mem_level (getElem?_of_drop hd) hop] at hle
          have hop' : op' ∈ ops := by
            by_contra hn
            have := rank_of_not_mem hd hj' hn
            omega
          simp [Cut.divide, hop']
      simp only [Cut.divide, if_pos hop]
      refine ⟨.last h, ?_⟩
      intro q hq
      rcases List.mem_cons.1 hq with rfl | hq
      · exact ⟨hfirst, hnone⟩
      · exact hrest q hq
    · simp only [Cut.divide, if_neg hop]
      refine ⟨.next h hs (rank_of_not_mem hd hj hop) hf ?_ hfirst, hrest⟩
      intro hy p hp
      apply hblank hy
      cases r with
      | nil => cases hp
      | cons q r =>
        obtain ⟨op', z⟩ := q
        by_cases hop' : op' ∈ ops
        · simp [Cut.divide, hop'] at hp
        · simpa [Cut.divide, hop'] using hp

end

/-! ## White space at the ends -/

theorem operatorAt_of_solid {ops : Level} {sign : Bool} {m : Marked} (h : Solid ops sign m) :
    operatorAt ops sign m = none := by
  cases ho : operatorAt ops sign m with
  | none => rfl
  | some op =>
    obtain ⟨-, -, m', rfl⟩ := operatorAt_eq_some ho
    rw [Solid, cutFrom_of_some ho] at h
    have ht := congrArg Cut.tail h
    cases ht

/-- White space before a character that is not blank does not count for what stands behind it. -/
theorem signPlace_trimStart {x : List Char} (h : Text.trimStart x ≠ []) :
    signPlace (Text.trimStart x) = signPlace x := by
  obtain ⟨u, -, e⟩ := Text.exists_trimStart x
  obtain ⟨c, s, hc⟩ := List.exists_cons_of_ne_nil h
  have hp := isPlainBlank_of_not_blank (Text.head_trimStart hc)
  conv_rhs => rw [e]
  rw [hc, ← foldl_signAfter, ← foldl_signAfter, List.foldl_append, List.foldl_cons, List.foldl_cons,
    signAfter_of_not_blank hp, signAfter_of_not_blank hp]

theorem beforeSign_of_blank {c : Char} (h : Text.isBlank c = true) : beforeSign c = false := by
  have hall : "+-*/%<>=!&|(".toList.all (fun d => !Text.isBlank d) = true := by decide
  cases hc : beforeSign c with
  | false => rfl
  | true =>
    have := List.all_eq_true.1 hall c (List.contains_iff_mem.1 hc)
    rw [h] at this
    cases this

section
variable {v : List Char} (hv : v.all Text.isBlank = true)
include hv

theorem solid_of_blank (ops : Level) (sign : Bool) : Solid ops sign (marked v) := by
  rw [marked_of_flat (isFlat_of_all_blank hv)]
  apply solid_of_not_beforeSign
  intro c hc
  exact beforeSign_of_blank (List.all_eq_true.1 hv c hc)

theorem apart_blank (m : Marked) : Apart m (marked v) := by
  apply apart_of_head
  intro c top r e
  right
  have hc : c ∈ v := by
    rw [← map_fst_marked v]
    apply List.mem_map_of_mem (f := Prod.fst) (a := (c, top))
    rw [e]
    exact List.mem_cons_self
  have hall : "|&=".toList.all (fun d => !Text.isBlank d) = true := by decide
  by_contra he
  rw [Bool.not_eq_false, endsSymbol, List.contains_iff_mem] at he
  have := List.all_eq_true.1 hall c he
  rw [List.all_eq_true.1 hv c hc] at this
  cases this

theorem cut_append_blank (ops : Level) (m : Marked) :
    cut ops (m ++ marked v) = (cut ops m).append ⟨v, []⟩ := by
  cases m with
  | nil =>
    have hs := solid_of_blank hv ops true
    have hnone : operatorAt ops true (marked v) = none := operatorAt_of_solid hs
    rw [List.nil_append, cut_of_none hnone, hs, map_fst_marked]
    rfl
  | cons p m =>
    obtain ⟨c, top⟩ := p
    rw [List.cons_append, cut, cut, cutFrom_append_of_apart (apart_blank hv m),
      solid_of_blank hv ops _, map_fst_marked, Cut.push_append]

end

/-- Cutting a text it does not matter whether its end is trimmed. -/
theorem Expr.climb_of_trimStart {inner : List Char → Except Fault Expr} {t : List Char} (hb : Balanced t)
    (ops : Level) (ls : List Level) : Expr.climb inner (ops :: ls) t =
      (cut ops (marked (Text.trimStart t))).read (Expr.climb inner ls) := by
  obtain ⟨v, hv, e⟩ := Text.exists_trimStart_trim t
  have hrd : ∀ x, Expr.climb inner ls (x ++ v) = Expr.climb inner ls x :=
    fun x => Expr.climb_congr (Text.trim_append_blank hv x) ls
  rw [Expr.climb_of_balanced hb, e, marked_append (balanced_trim.2 hb), cut_append_blank hv, Cut.read,
    Cut.read, Cut.readWith_append _ hrd]
  cases Cut.readWith (Expr.climb inner ls) id (cut ops (marked (Text.trim t))) <;> rfl

/-! ## Reading a sequence -/

theorem Whole.trimStart {x : List Char} (h : Whole x) : Whole (Text.trimStart x) := by
  obtain ⟨u, hu, e⟩ := Text.exists_trimStart x
  have hub := balanced_of_blank hu
  refine ⟨?_, ?_, ?_⟩
  · have hb := h.balanced
    rw [e] at hb
    exact hub.append_iff.1 hb
  · apply h.seam.of_suffix
    refine ⟨marked u, ?_⟩
    rw [← marked_append hub, ← e]
  · rw [Text.trimStart_trimStart]
    exact h.solid

theorem Written.trimStart {j : Nat} {x : List Char} {r : List (Operator × List Char)}
    (h : Written j x r) (hne : Text.trimStart x = [] → r = []) : Written j (Text.trimStart x) r := by
  cases h with
  | last h => exact .last h.trimStart
  | next h hs hj hf hy hr =>
    refine .next h.trimStart ?_ hj hf hy hr
    intro hsign
    rw [signPlace_trimStart fun e => by cases hne e]
    exact hs hsign

section
variable {j : Nat} {x : List Char} {r : List (Operator × List Char)}

theorem trimStart_join (hne : Text.trimStart x = [] → r = []) :
    Text.trimStart (Cut.mk x r).join = (Cut.mk (Text.trimStart x) r).join := by
  by_cases hx : Text.trimStart x = []
  · rw [hne hx, Cut.join_head, Cut.join_head]
    simp [Cut.join, hx]
  · rw [Cut.join_head, Text.trimStart_append_of_ne hx]
    rfl

theorem Written.cut {ops : Level} {ls : List Level} (hd : levels.drop j = ops :: ls)
    (h : Written j x r) (hne : Text.trimStart x = [] → r = []) :
    Stencil.cut ops (marked (Text.trimStart (Cut.mk x r).join)) =
      ⟨(Cut.mk (Text.trimStart x) (Cut.divide ops r).1).join,
        (Cut.divide ops r).2.map fun q => (q.1, q.2.join)⟩ := by
  have hs := h.whole.solid ops (mem_levels_of_drop hd)
  have hw := h.trimStart hne
  rw [trimStart_join hne]
  have hnone : operatorAt ops true (marked (Cut.mk (Text.trimStart x) r).join) = none := by
    by_cases hx : Text.trimStart x = []
    · rw [hne hx, hx]
      exact operatorAt_of_solid rfl
    · rw [Cut.join_head, marked_append hw.whole.balanced,
        (hw.whole.seam.apart _).operatorAt (marked_ne_nil hx)]
      exact operatorAt_of_solid hs
  rw [cut_of_none hnone, hw.cutFrom hd hs]

end

theorem foldlM_parts {rd : List Char → Except Fault Expr} {leaf : List Char → Except Fault Expr}
    {ls : List Level} {qs : List (Operator × Cut)}
    (h : ∀ q ∈ qs, rd q.2.join = q.2.trimmed.tree leaf ls) (l : Expr) :
    (qs.map fun q => (q.1, q.2.join)).foldlM (Cut.join1 rd) l =
      (qs.map fun q => (q.1, q.2.trimmed)).foldlM
        (fun l q => return .binary l q.1 (← Cut.tree leaf ls q.2)) l := by
  induction qs generalizing l with
  | nil => rfl
  | cons q qs ih =>
    have hq := h q List.mem_cons_self
    have ih' := ih fun q hq => h q (List.mem_cons_of_mem _ hq)
    simp only [List.map_cons, List.foldlM_cons, Cut.join1, hq, ih']

/-- The text of a sequence is read as the tree of the sequence. -/
theorem Written.climb {inner : List Char → Except Fault Expr} {j : Nat} {x : List Char}
    {r : List (Operator × List Char)} (h : Written j x r) (hne : Text.trimStart x = [] → r = []) :
    Expr.climb inner (levels.drop j) (Cut.mk x r).join =
      (Cut.mk x r).trimmed.tree (Expr.ofOperand inner) (levels.drop j) := by
  -- On the levels that are left, since the parts of the sequence are read at the next one.
  generalize hls : levels.drop j = ls
  induction ls generalizing j x r with
  | nil =>
    cases h with
    | last h => simp [Cut.join, Expr.climb, Cut.tree, Cut.trimmed]
    | @next _ y op r _ _ hj _ _ _ =>
      have hlen := List.drop_eq_nil_iff.1 hls
      have := op.rank_lt
      omega
  | cons ops ls ih =>
    have hd : levels.drop (j + 1) = ls := by
      rw [← List.tail_drop, hls]
      rfl
    obtain ⟨hfirst, hrest⟩ := h.divide hls
    have hnil : Text.trimStart x = [] → (Cut.divide ops r).1 = [] := by
      intro hx
      rw [hne hx]
      rfl
    have hhead : Expr.climb inner ls (Cut.mk (Text.trimStart x) (Cut.divide ops r).1).join =
        (Cut.mk x (Cut.divide ops r).1).trimmed.tree (Expr.ofOperand inner) ls := by
      rw [← ih hfirst hnil hd, ← trimStart_join hnil]
      apply Expr.climb_congr
      exact Text.trim_trimStart _
    have htail : ∀ q ∈ (Cut.divide ops r).2,
        Expr.climb inner ls q.2.join = q.2.trimmed.tree (Expr.ofOperand inner) ls := by
      intro q hq
      obtain ⟨hw, hn⟩ := hrest q hq
      exact ih hw hn hd
    rw [Expr.climb_of_trimStart h.balanced, h.cut hls hne]
    simp only [Cut.read, Cut.readWith, hhead, foldlM_parts htail, Cut.tree, Cut.trimmed, Cut.divide_map]
    rfl

/-! ## What a tree keeps of its sequence -/

namespace Expr

/-- The operators and the leaves of a tree from left to right. -/
def inorder : Expr → List (Operator ⊕ Expr)
  | binary l op r => l.inorder ++ .inl op :: r.inorder
  | literal v => [.inr (literal v)]
  | identifier n => [.inr (identifier n)]
  | raw c => [.inr (raw c)]

end Expr

section
variable (leaf : List Char → Except Fault Expr)

def leaves (x : List Char) : List (Operator ⊕ Expr) :=
  match leaf x with
  | .ok e => e.inorder
  | .error _ => []

def leavesBehind (r : List (Operator × List Char)) : List (Operator ⊕ Expr) :=
  r.flatMap fun p => .inl p.1 :: leaves leaf p.2

theorem leavesBehind_divide (ops : Level) (r : List (Operator × List Char)) :
    leavesBehind leaf r = leavesBehind leaf (Cut.divide ops r).1 ++
      (Cut.divide ops r).2.flatMap fun q =>
        .inl q.1 :: (leaves leaf q.2.head ++ leavesBehind leaf q.2.tail) := by
  induction r with
  | nil => rfl
  | cons p r ih =>
    obtain ⟨op, x⟩ := p
    have hcons : leavesBehind leaf ((op, x) :: r) = .inl op :: (leaves leaf x ++ leavesBehind leaf r) := rfl
    rw [hcons, ih]
    by_cases h : op ∈ ops <;> simp [Cut.divide, h, leavesBehind]

theorem mem_divide (ops : Level) (r : List (Operator × List Char)) :
    (∀ p ∈ (Cut.divide ops r).1, p ∈ r ∧ p.1 ∉ ops) ∧
      ∀ q ∈ (Cut.divide ops r).2, ∀ p ∈ q.2.tail, p ∈ r ∧ p.1 ∉ ops := by
  induction r with
  | nil => simp [Cut.divide]
  | cons p r ih =>
    obtain ⟨op, x⟩ := p
    obtain ⟨ih₁, ih₂⟩ := ih
    have later : ∀ {p : Operator × List Char}, p ∈ r ∧ p.1 ∉ ops → p ∈ (op, x) :: r ∧ p.1 ∉ ops :=
      fun h => ⟨List.mem_cons_of_mem _ h.1, h.2⟩
    by_cases h : op ∈ ops
    · simp only [Cut.divide, if_pos h]
      refine ⟨by simp, ?_⟩
      intro q hq p hp
      rcases List.mem_cons.1 hq with rfl | hq
      · exact later (ih₁ p hp)
      · exact later (ih₂ q hq p hp)
    · simp only [Cut.divide, if_neg h]
      refine ⟨?_, fun q hq p hp => later (ih₂ q hq p hp)⟩
      intro p hp
      rcases List.mem_cons.1 hp with rfl | hp
      · exact ⟨List.mem_cons_self, h⟩
      · exact later (ih₁ p hp)

theorem inorder_foldlM {ls : List Level} {qs : List (Operator × Cut)}
    (h : ∀ q ∈ qs, ∀ e, Cut.tree leaf ls q.2 = .ok e →
      e.inorder = leaves leaf q.2.head ++ leavesBehind leaf q.2.tail) {l e : Expr}
    (he : qs.foldlM (fun l q => return .binary l q.1 (← Cut.tree leaf ls q.2)) l = Except.ok e) :
    e.inorder = l.inorder ++
      qs.flatMap fun q => .inl q.1 :: (leaves leaf q.2.head ++ leavesBehind leaf q.2.tail) := by
  induction qs generalizing l with
  | nil =>
    cases he
    simp
  | cons q qs ih =>
    rw [List.foldlM_cons] at he
    cases hq : Cut.tree leaf ls q.2 with
    | error f =>
      rw [hq] at he
      cases he
    | ok r =>
      rw [hq] at he
      have hr := h q List.mem_cons_self r hq
      rw [ih (fun q hq => h q (List.mem_cons_of_mem _ hq)) he, Expr.inorder, hr]
      simp

/-- The operators and leaves of the tree of a sequence are those of the sequence. -/
theorem Cut.inorder_tree {ls : List Level} {k : Cut} (hk : ∀ p ∈ k.tail, p.1 ∈ ls.flatten) {e : Expr}
    (h : k.tree leaf ls = .ok e) : e.inorder = leaves leaf k.head ++ leavesBehind leaf k.tail := by
  induction ls generalizing k e with
  | nil =>
    have ht : k.tail = [] := List.eq_nil_iff_forall_not_mem.2 fun p hp => by cases hk p hp
    replace h : leaf k.head = .ok e := h
    simp [leaves, h, ht, leavesBehind]
  | cons ops ls ih =>
    obtain ⟨hin, hin'⟩ := mem_divide ops k.tail
    have tighter : ∀ {p : Operator × List Char}, p ∈ k.tail ∧ p.1 ∉ ops → p.1 ∈ ls.flatten := by
      rintro p ⟨hp, hn⟩
      have := hk p hp
      rw [List.flatten_cons, List.mem_append] at this
      exact this.resolve_left hn
    rw [tree] at h
    cases hl : tree leaf ls ⟨k.head, (divide ops k.tail).1⟩ with
    | error f =>
      simp only [hl] at h
      cases h
    | ok l =>
      simp only [hl] at h
      have hhead := ih (k := ⟨k.head, (divide ops k.tail).1⟩) (fun p hp => tighter (hin p hp)) hl
      have hrest : ∀ q ∈ (divide ops k.tail).2, ∀ e, tree leaf ls q.2 = .ok e →
          e.inorder = leaves leaf q.2.head ++ leavesBehind leaf q.2.tail :=
        fun q hq e he => ih (fun p hp => tighter (hin' q hq p hp)) he
      rw [inorder_foldlM leaf hrest h, hhead, leavesBehind_divide leaf ops k.tail, List.append_assoc]

end

end Stencil
