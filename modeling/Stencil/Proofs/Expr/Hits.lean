import Stencil.Proofs.Expr.Signs
import Stencil.Proofs.Expr.Balance

/-!
# Operators by their index

`hits` searches a marked text for the operators of a level by index, from the second character on, and
`Hit.slices` takes the operands from between the indices. This gives the same cut as going through the
text character by character. The hits follow each other, each stands outside brackets and quotes, and in
what is left between them an operator of the level stands only where it is a sign.
-/

namespace Stencil

/-- An operator that was found, with the index of its first character. -/
structure Hit where
  start : Nat
  op : Operator
deriving DecidableEq

def Hit.stop (h : Hit) : Nat := h.start + h.op.chars.length

/-! ## The search -/

/-- The symbol stands at the index, outside brackets and quotes, and it is no sign. -/
def hitAt (m : Marked) (i : Nat) (op : Operator) : Bool :=
  symbolAt op.chars (m.drop i) && !(op.isSign && signPlace ((m.take i).map Prod.fst))

/-- The operators of the level from the index on. The search goes on behind a symbol, not inside it. -/
def hitsFrom (ops : Level) (m : Marked) (i : Nat) : List Hit :=
  if i < m.length then
    match ops.find? (hitAt m i) with
    | some op => ⟨i, op⟩ :: hitsFrom ops m (i + op.chars.length)
    | none => hitsFrom ops m (i + 1)
  else []
termination_by m.length - i
decreasing_by
  · have := op.length_pos
    omega
  · omega

def hits (ops : Level) (m : Marked) : List Hit := hitsFrom ops m 1

namespace Hit

-- Where the slice in front of these hits ends.
def bound (t : List Char) : List Hit → Nat
  | [] => t.length
  | h :: _ => h.start

def operands (t : List Char) : List Hit → List (Operator × List Char)
  | [] => []
  | h :: hs => (h.op, t.extract h.stop (bound t hs)) :: operands t hs

/-- The slices of the text before, between and behind the hits. -/
def slices (t : List Char) (hs : List Hit) : Cut := ⟨t.extract 0 (bound t hs), operands t hs⟩

end Hit

/-! ## Hits of a cut -/

theorem extract_between {α : Type} (a x b : List α) :
    (a ++ (x ++ b)).extract a.length (a.length + x.length) = x := by
  rw [List.extract_eq_take_drop, List.drop_left, Nat.add_sub_cancel_left, List.take_left]

namespace Cut

def hitsOf (i : Nat) (head : List Char) : List (Operator × List Char) → List Hit
  | [] => []
  | (op, t) :: r => ⟨i + head.length, op⟩ :: hitsOf (i + head.length + op.chars.length) t r

/-- The operators of the cut of a text that starts at the index. -/
def hits (i : Nat) (k : Cut) : List Hit := hitsOf i k.head k.tail

theorem hits_lone (i : Nat) (t : List Char) : hits i ⟨t, []⟩ = [] := rfl

theorem hits_cons (i : Nat) (h : List Char) (op : Operator) (t : List Char)
    (r : List (Operator × List Char)) :
    hits i ⟨h, (op, t) :: r⟩ = ⟨i + h.length, op⟩ :: hits (i + h.length + op.chars.length) ⟨t, r⟩ := rfl

theorem hits_push (i : Nat) (c : Char) (k : Cut) : (k.push c).hits i = k.hits (i + 1) := by
  obtain ⟨h, r⟩ := k
  cases r with
  | nil => rfl
  | cons p r =>
    obtain ⟨op, t⟩ := p
    simp [push, hits_cons, Nat.add_assoc, Nat.add_comm 1]

theorem hits_start (i : Nat) (op : Operator) (k : Cut) :
    (k.start op).hits i = ⟨i, op⟩ :: k.hits (i + op.chars.length) := rfl

theorem pairwise_hits (i : Nat) (k : Cut) :
    (k.hits i).Pairwise (fun h h' => h.stop ≤ h'.start) ∧
      ∀ h ∈ k.hits i, i + k.head.length ≤ h.start := by
  obtain ⟨x, r⟩ := k
  induction r generalizing i x with
  | nil => exact ⟨.nil, fun h hm => by cases hm⟩
  | cons p r ih =>
    obtain ⟨op, t⟩ := p
    obtain ⟨hp, hle⟩ := ih (i + x.length + op.chars.length) t
    rw [hits_cons]
    constructor
    · apply List.pairwise_cons.2 ⟨_, hp⟩
      intro h hm
      exact Nat.le_trans (Nat.le_add_right _ _) (hle h hm)
    · intro h hm
      rcases List.mem_cons.1 hm with rfl | hm
      · exact Nat.le_refl _
      · have := hle h hm
        simp only at this ⊢
        omega

theorem operands_hits (b : List Char) (k : Cut) :
    Hit.bound (b ++ k.join) (k.hits b.length) = b.length + k.head.length ∧
      Hit.operands (b ++ k.join) (k.hits b.length) = k.tail := by
  obtain ⟨x, r⟩ := k
  induction r generalizing b x with
  | nil => simp [hits_lone, Hit.bound, Hit.operands, join]
  | cons p r ih =>
    obtain ⟨op, t⟩ := p
    -- What stands in front of the operand behind the first symbol.
    let b' := b ++ (x ++ op.chars)
    have hlen : b'.length = b.length + x.length + op.chars.length := by simp [b', Nat.add_assoc]
    have e : b ++ join ⟨x, (op, t) :: r⟩ = b' ++ join ⟨t, r⟩ := by simp [b', join_cons]
    have hx : (b' ++ join ⟨t, r⟩).extract b'.length (b'.length + t.length) = t := extract_between _ _ _
    obtain ⟨hb, ho⟩ := ih b' t
    rw [hits_cons, Hit.operands, e, ← hlen, ho, hb]
    refine ⟨rfl, ?_⟩
    rw [show Hit.stop ⟨b.length + x.length, op⟩ = b'.length from hlen.symm, hx]

/-- The slices between the operators of a cut are its pieces. -/
theorem slices_hits (k : Cut) : Hit.slices k.join (k.hits 0) = k := by
  obtain ⟨hb, ho⟩ := operands_hits [] k
  have hx : k.join.extract 0 (0 + k.head.length) = k.head := extract_between [] _ _
  simp only [List.nil_append, List.length_nil] at hb ho
  rw [Hit.slices, hb, ho, hx]

end Cut

/-! ## The search finds the cut -/

theorem hitsFrom_eq_nil {m : Marked} {i : Nat} (ops : Level) (h : m.length ≤ i) : hitsFrom ops m i = [] := by
  rw [hitsFrom, if_neg (Nat.not_lt.2 h)]

theorem find?_hitAt (ops : Level) (m m' : Marked) :
    ops.find? (hitAt (m ++ m') m.length) = operatorAt ops (signPlace (m.map Prod.fst)) m' := by
  unfold operatorAt hitAt
  rw [List.drop_left, List.take_left]

theorem hitsFrom_append (ops : Level) (m m' : Marked) : hitsFrom ops (m ++ m') m.length =
    (cutFrom ops (signPlace (m.map Prod.fst)) 0 m').hits m.length := by
  -- On the length of the text, since the search goes over a symbol at once.
  match m' with
  | [] => exact hitsFrom_eq_nil ops (by simp)
  | p :: r =>
    rw [hitsFrom, if_pos (by simp), find?_hitAt]
    cases ho : operatorAt ops (signPlace (m.map Prod.fst)) (p :: r) with
    | none =>
      have ih := hitsFrom_append ops (m ++ [p]) r
      rw [List.append_assoc, List.length_append, List.map_append, List.map_singleton,
        signPlace_concat] at ih
      simp only
      rw [cutFrom_of_none ho, Cut.hits_push]
      exact ih
    | some op =>
      obtain ⟨-, -, s, hs⟩ := operatorAt_eq_some ho
      have hlen : s.length < (p :: r).length := by
        have := op.length_pos
        rw [hs, List.length_append, List.length_map]
        omega
      have ih := hitsFrom_append ops (m ++ op.chars.map (·, true)) s
      rw [List.append_assoc, List.length_append, List.length_map, List.map_append, map_fst_map,
        signPlace_symbol] at ih
      rw [hs] at ho ⊢
      simp only
      rw [cutFrom_of_some ho, Cut.hits_start, ih]
termination_by m'.length
decreasing_by
  · exact Nat.lt_succ_self r.length
  · exact hlen

theorem hits_eq (ops : Level) (m : Marked) : hits ops m = (cut ops m).hits 0 := by
  match m with
  | [] => exact hitsFrom_eq_nil ops (Nat.zero_le 1)
  | (c, top) :: r =>
    have h := hitsFrom_append ops [(c, top)] r
    rw [List.map_singleton, ← List.nil_append [(c, top).1], signPlace_concat] at h
    rw [cut, Cut.hits_push]
    exact h

theorem ordered_hits (ops : Level) (m : Marked) :
    (hits ops m).Pairwise fun h h' => h.start < h'.start ∧ h.stop ≤ h'.start := by
  rw [hits_eq]
  apply (Cut.pairwise_hits 0 (cut ops m)).1.imp
  intro h h' hle
  have hlt : h.start < h.stop := Nat.lt_add_of_pos_right h.op.length_pos
  exact ⟨Nat.lt_of_lt_of_le hlt hle, hle⟩

theorem slices_hits {t : List Char} (ht : Balanced t) (ops : Level) :
    Hit.slices t (hits ops (marked t)) = cut ops (marked t) := by
  have h := Cut.slices_hits (cut ops (marked t))
  rwa [join_cut ht, ← hits_eq] at h

/-! ## Where operators stand -/

namespace CutsInto

variable {ops : Level} {b t : List Char} {k : Cut}

theorem stands (h : CutsInto ops b t k) : ∀ x ∈ k.hits b.length,
    x.op ∈ ops ∧ ∃ p s, b ++ t = p ++ (x.op.chars ++ s) ∧ p.length = x.start ∧ Stands x.op p := by
  induction h with
  | done => simp [Cut.hits_lone]
  | @symbol b t op k hop hst _ ih =>
    intro x hx
    rw [Cut.hits_start] at hx
    rcases List.mem_cons.1 hx with rfl | hx
    · exact ⟨hop, b, t, rfl, rfl, hst⟩
    · rw [← List.append_assoc]
      apply ih
      rwa [List.length_append]
  | @char b t c k _ _ ih =>
    intro x hx
    rw [Cut.hits_push] at hx
    rw [List.append_cons]
    apply ih
    rwa [List.length_append]

theorem of_push {c : Char} {x : List Char} {r : List (Operator × List Char)}
    (h : CutsInto ops b t ⟨c :: x, r⟩) : ∃ s, t = c :: s ∧
      (∀ op ∈ ops, op.chars <+: c :: s → ¬ Stands op b) ∧ CutsInto ops (b ++ [c]) s ⟨x, r⟩ := by
  generalize hk : Cut.mk (c :: x) r = k at h
  cases h with
  | done => cases hk
  | symbol => cases hk
  | char hno hc =>
    cases hk
    exact ⟨_, rfl, hno, hc⟩

theorem of_start {op : Operator} {x : List Char} {r : List (Operator × List Char)}
    (h : CutsInto ops b t ⟨[], (op, x) :: r⟩) : ∃ s, t = op.chars ++ s ∧
      CutsInto ops (b ++ op.chars) s ⟨x, r⟩ := by
  generalize hk : Cut.mk [] ((op, x) :: r) = k at h
  cases h with
  | done => cases hk
  | symbol _ _ hc =>
    cases hk
    exact ⟨_, rfl, hc⟩
  | char => cases hk

/-- Behind a part of the first piece the cut goes on with the rest of the piece. -/
theorem of_append {a x : List Char} {r : List (Operator × List Char)}
    (h : CutsInto ops b t ⟨a ++ x, r⟩) : ∃ s, t = a ++ s ∧ CutsInto ops (b ++ a) s ⟨x, r⟩ := by
  induction a generalizing b t with
  | nil => exact ⟨t, rfl, by rwa [List.append_nil]⟩
  | cons c a ih =>
    obtain ⟨s, rfl, -, hc⟩ := of_push h
    obtain ⟨s, rfl, hs⟩ := ih hc
    exact ⟨s, rfl, by rwa [List.append_cons]⟩

theorem of_fill {P : Place} {x : List Char} (h : CutsInto ops b t (P.fill x)) :
    ∃ s, t = P.left ++ s ∧ CutsInto ops (b ++ P.left) s ⟨x, P.after⟩ := by
  obtain ⟨l, r⟩ := P
  induction l generalizing b t with
  | nil => exact ⟨t, rfl, by simpa [Place.left, Place.fill_nil] using h⟩
  | cons p l ih =>
    obtain ⟨y, op⟩ := p
    rw [Place.fill_cons, ← List.append_nil y] at h
    obtain ⟨s₁, rfl, h₁⟩ := of_append h
    obtain ⟨s₂, rfl, h₂⟩ := of_start h₁
    obtain ⟨s, rfl, h₃⟩ := ih h₂
    refine ⟨s, by simp [Place.left_cons], ?_⟩
    simpa [Place.left_cons] using h₃

/-- In a piece no operator of the level may stand. -/
theorem not_stands {P : Place} {a v : List Char} {op : Operator} (hop : op ∈ ops)
    (h : CutsInto ops b t (P.fill (a ++ (op.chars ++ v)))) : ¬ Stands op (b ++ (P.left ++ a)) := by
  obtain ⟨_, -, h₁⟩ := of_fill h
  obtain ⟨_, -, h₂⟩ := of_append h₁
  obtain ⟨u, hu, -⟩ := of_append h₂
  obtain ⟨c, r, hc⟩ := op.exists_chars
  rw [hc, List.cons_append] at h₂
  obtain ⟨s, rfl, hno, -⟩ := of_push h₂
  rw [← List.append_assoc]
  exact hno op hop ⟨u, hu.symm⟩

end CutsInto

section
variable {ops : Level} {t : List Char} (ht : Balanced t)
include ht

theorem stands_of_mem_hits {h : Hit} (hm : h ∈ hits ops (marked t)) : h.op ∈ ops ∧
    ∃ p s, t = p ++ (h.op.chars ++ s) ∧ p.length = h.start ∧ Stands h.op p ∧ Balanced s := by
  rw [hits_eq] at hm
  obtain ⟨hop, p, s, e, hlen, hst⟩ := (cutsInto_cut ht).stands h hm
  rw [List.nil_append] at e
  refine ⟨hop, p, s, e, hlen, hst, ?_⟩
  rwa [e, hst.outside.balanced.append_iff, (balanced_symbol h.op).append_iff] at ht

theorem slice_of_mem_hits {h : Hit} (hm : h ∈ hits ops (marked t)) :
    1 ≤ h.start ∧ h.stop ≤ t.length ∧ h.op ∈ ops ∧ t.extract h.start h.stop = h.op.chars := by
  obtain ⟨hop, p, s, rfl, hlen, hst, -⟩ := stands_of_mem_hits ht hm
  have hpos : 0 < p.length := List.length_pos_iff.2 hst.inner
  have hx := extract_between p h.op.chars s
  rw [hlen] at hx hpos
  refine ⟨hpos, ?_, hop, hx⟩
  rw [Hit.stop, List.length_append, List.length_append, hlen, ← Nat.add_assoc]
  exact Nat.le_add_right _ _

theorem stands_of_hitAt {p u : List Char} {op : Operator} (e : t = p ++ u) (hp : p ≠ [])
    (h : hitAt (marked t) p.length op = true) : Stands op p := by
  rw [e, Balanced, Scan.run_append] at ht
  obtain ⟨s, hs, -⟩ := Option.bind_eq_some_iff.1 ht
  have hm : marked t = markedFrom .start p ++ markedFrom s u := by
    rw [e]
    exact markedFrom_append hs u
  have hlen : (markedFrom .start p).length = p.length := length_marked p
  simp only [hitAt, Bool.and_eq_true, Bool.not_eq_true', Bool.and_eq_false_imp] at h
  obtain ⟨hsym, hsign⟩ := h
  rw [hm, List.drop_left' hlen] at hsym
  rw [hm, List.take_left' hlen, map_fst_markedFrom] at hsign
  obtain ⟨rfl, -⟩ := symbolAt_markedFrom hsym
  exact ⟨balanced_iff_nested.1 hs, hp, hsign⟩

end

/-- The text can be cut on both sides of an operator that is found, which is outside brackets and quotes. -/
theorem outside_of_mem_hits {ops : Level} {t : List Char} {ms : List Bool} (h : marks t = some ms) {x : Hit}
    (hm : x ∈ hits ops (marked t)) :
    ms.extract x.start x.stop = List.replicate x.op.chars.length true ∧
      Nested (t.take x.start) ∧ Nested (t.drop x.stop) := by
  obtain ⟨ht, -, rfl⟩ := eq_of_marks h
  obtain ⟨-, p, s, rfl, hlen, hst, hs⟩ := stands_of_mem_hits ht hm
  have hlen' : (p ++ x.op.chars).length = x.stop := by rw [List.length_append, hlen, Hit.stop]
  refine ⟨?_, ?_, ?_⟩
  · have hsym : (x.op.chars.map (·, true)).map Prod.snd = List.replicate x.op.chars.length true := by
      rw [List.map_map]
      exact List.map_const'
    have hx := extract_between ((marked p).map Prod.snd) (List.replicate x.op.chars.length true)
      ((marked s).map Prod.snd)
    rw [List.length_map, length_marked, List.length_replicate, hlen] at hx
    rw [marked_append hst.outside.balanced, marked_symbol, List.map_append, List.map_append, hsym, Hit.stop,
      hx]
  · rw [List.take_left' hlen]
    exact hst.outside
  · rw [← List.append_assoc, List.drop_left' hlen']
    exact balanced_iff_nested.1 hs

section
variable {ops : Level} {t : List Char} (ht : Balanced t) {P : Place}
include ht

theorem hitAt_of_piece {a v : List Char} {op : Operator} (hop : op ∈ ops) (hne : P.left ++ a ≠ [])
    (hc : cut ops (marked t) = P.fill (a ++ (op.chars ++ v))) :
    hitAt (marked t) (P.left ++ a).length op = false := by
  have hj : (cut ops (marked t)).join = t := join_cut ht
  have hno : ¬ Stands op ([] ++ (P.left ++ a)) := (hc ▸ cutsInto_cut ht).not_stands hop
  rw [hc, Place.join_fill] at hj
  rw [← Bool.not_eq_true]
  intro h
  apply hno
  apply stands_of_hitAt ht (u := op.chars ++ (v ++ P.right)) _ hne h
  rw [← hj]
  simp

/-- A sign in a piece is one in the whole text. -/
theorem signPlace_piece {x : List Char} (hc : cut ops (marked t) = P.fill x) (a : List Char) :
    signPlace (P.left ++ a) = signPlace a := by
  have hl : signPlace P.left = true := by
    rcases Place.left_eq (x := x) (hc ▸ mem_level_of_mem_cut ht) with e | ⟨b, op, -, e⟩
    · rw [e]
      rfl
    · rw [e, signPlace_symbol]
  rw [← foldl_signAfter, List.foldl_append, foldl_signAfter, hl, foldl_signAfter]

/-- A search in a piece finds nothing more. -/
theorem hits_of_piece {x : List Char} (hx : x ∈ (cut ops (marked t)).pieces) :
    hits ops (marked x) = [] := by
  obtain ⟨P, hP, -, hl⟩ := Place.exists_of_mem ht hx
  have hb : Balanced x := balanced_of_mem_pieces ht x hx
  rw [List.eq_nil_iff_forall_not_mem]
  intro h hm
  obtain ⟨hop, a, v, rfl, -, hst, -⟩ := stands_of_mem_hits hb hm
  apply (hP ▸ cutsInto_cut ht).not_stands hop
  rw [List.nil_append]
  refine ⟨balanced_iff_nested.1 (hl.append hst.outside.balanced), by simp [hst.inner], ?_⟩
  rw [signPlace_piece ht hP]
  exact hst.infixed

end

end Stencil
