import Stencil.Proofs.Expr.Pieces

/-!
# Operands in their places

Cutting a text level by level leaves its operands. An operand that has no operators and brings none
about can be exchanged for another one of this kind: the cuts stay the same around it, and so the
tree changes in one leaf.
-/

namespace Stencil

/-! ## Trees with a hole -/

namespace Expr

/-- A tree in which one leaf is left out. -/
inductive Context
  | hole
  | left (c : Context) (op : Operator) (r : Expr)
  | right (l : Expr) (op : Operator) (c : Context)

namespace Context

def fill : Context → Expr → Expr
  | hole, e => e
  | left c op r, e => .binary (c.fill e) op r
  | right l op c, e => .binary l op (c.fill e)

def comp : Context → Context → Context
  | hole, d => d
  | left c op r, d => left (c.comp d) op r
  | right l op c, d => right l op (c.comp d)

theorem fill_comp (c d : Context) (e : Expr) : (c.comp d).fill e = c.fill (d.fill e) := by
  induction c with
  | hole => rfl
  | left c op r ih => simp only [comp, fill, ih]
  | right l op c ih => simp only [comp, fill, ih]

end Context

end Expr

open Stencil.Expr (Context)

/-! ## Reading the pieces -/

/-- The text could not be read. -/
def Fails (r : Except Fault Expr) : Prop := ∃ f, r = .error f

theorem fails_error (f : Fault) : Fails (.error f) := ⟨f, rfl⟩

theorem not_fails_ok (e : Expr) : ¬ Fails (.ok e) := by
  rintro ⟨f, h⟩
  cases h

theorem not_fails_iff {r : Except Fault Expr} : ¬ Fails r ↔ ∃ e, r = .ok e := by
  cases r with
  | error f => simp [fails_error]
  | ok e => simp [not_fails_ok]

namespace Cut

variable {rd : List Char → Except Fault Expr}

theorem readWith_fails_iff (f : Expr → Expr) (k : Cut) :
    Fails (readWith rd f k) ↔ ∃ x ∈ k.pieces, Fails (rd x) := by
  obtain ⟨h, t⟩ := k
  induction t generalizing h f with
  | nil =>
    have : readWith rd f ⟨h, []⟩ = (rd h).map f := by
      simp only [readWith]
      cases rd h <;> rfl
    rw [this]
    cases hh : rd h with
    | error x => simp [pieces, hh, fails_error, Except.map]
    | ok e => simp [pieces, hh, not_fails_ok, Except.map]
  | cons p t ih =>
    obtain ⟨op, y⟩ := p
    have hp : pieces ⟨h, (op, y) :: t⟩ = h :: pieces ⟨y, t⟩ := rfl
    simp only [readWith_cons, hp, List.mem_cons, exists_eq_or_imp]
    cases hh : rd h with
    | error x => simp [fails_error, Except.bind]
    | ok e => simp [not_fails_ok, Except.bind, ih]

theorem read_fails_iff (k : Cut) : Fails (k.read rd) ↔ ∃ x ∈ k.pieces, Fails (rd x) :=
  readWith_fails_iff id k

theorem foldlM_fill (c : Context) {a : List (Operator × List Char)} {l e : Expr}
    (h : a.foldlM (join1 rd) (c.fill l) = .ok e) :
    ∃ d : Context, e = d.fill l ∧ ∀ m, a.foldlM (join1 rd) (c.fill m) = .ok (d.fill m) := by
  induction a generalizing c with
  | nil =>
    cases h
    exact ⟨c, rfl, fun m => rfl⟩
  | cons p a ih =>
    obtain ⟨op, t⟩ := p
    have hj : ∀ m, join1 rd (c.fill m) (op, t) = (rd t).map fun r => (Context.left c op r).fill m := by
      intro m
      simp only [join1]
      cases rd t <;> rfl
    simp only [List.foldlM_cons, hj] at h ⊢
    cases ht : rd t with
    | error x =>
      rw [ht] at h
      cases h
    | ok r =>
      rw [ht] at h
      exact ih (.left c op r) h

theorem readWith_fill (c : Context) {P : Place} {x : List Char} {e : Expr}
    (h : readWith rd c.fill (P.fill x) = .ok e) :
    ∃ d : Context, ∃ l, rd x = .ok l ∧ e = d.fill l ∧
      ∀ y, readWith rd c.fill (P.fill y) = (rd y).map d.fill := by
  obtain ⟨b, a⟩ := P
  induction b generalizing c with
  | nil =>
    simp only [Place.fill_nil, readWith] at h ⊢
    cases hx : rd x with
    | error f =>
      rw [hx] at h
      cases h
    | ok l =>
      rw [hx] at h
      obtain ⟨d, rfl, hd⟩ := foldlM_fill c h
      refine ⟨d, l, rfl, rfl, ?_⟩
      intro y
      cases rd y with
      | error f => rfl
      | ok m => exact hd m
  | cons p b ih =>
    obtain ⟨t, op⟩ := p
    simp only [Place.fill_cons, readWith_cons] at h ⊢
    cases ht : rd t with
    | error f =>
      rw [ht] at h
      cases h
    | ok l =>
      rw [ht] at h
      exact ih (.right (c.fill l) op .hole) h

theorem read_fill {P : Place} {x : List Char} {e : Expr} (h : (P.fill x).read rd = .ok e) :
    ∃ d : Context, ∃ l, rd x = .ok l ∧ e = d.fill l ∧ ∀ y, (P.fill y).read rd = (rd y).map d.fill :=
  readWith_fill .hole h

end Cut

/-! ## Texts that cutting leaves alone -/

/-- An operand that no symbol lies in or reaches into, whatever stands around it. -/
structure Inert (o : List Char) : Prop extends IsOperand o where
  solid : ∀ ops sign, Solid ops sign (marked o)
  apart : ∀ c top m, marked o = (c, top) :: m → top = false ∨ beforeSign c = false

theorem inert_bracketed {s : List Char} (h : Balanced s) : Inert (bracketed s) where
  toIsOperand := isOperand_bracketed h
  solid := by
    intro ops sign
    rw [marked_bracketed h]
    exact solid_of_hidden ops sign _
  apart := by
    intro c top m e
    rw [marked_bracketed h] at e
    left
    exact (congrArg Prod.snd (List.cons.inj e).1).symm

theorem inert_of_nameChars {t : List Char} (hne : t ≠ []) (h : ∀ c ∈ t, isNameChar c) : Inert t where
  toIsOperand := isOperand_of_nameChars hne h
  solid := by
    intro ops sign
    rw [marked_of_flat fun c hc => isFlat_of_nameChar (h c hc)]
    exact solid_of_not_beforeSign (fun c hc => beforeSign_of_nameChar (h c hc)) ops sign true
  apart := by
    intro c top m e
    right
    apply beforeSign_of_nameChar
    apply h
    have := congrArg (List.map Prod.fst) e
    rw [map_fst_marked] at this
    rw [this]
    exact List.mem_cons_self

theorem cut_of_none {ops : Level} {m : Marked} (h : operatorAt ops true m = none) :
    cut ops m = cutFrom ops true 0 m := by
  cases m with
  | nil => rfl
  | cons p m =>
    rw [cutFrom_of_none h]
    rfl

/-- No symbol ends where an operand starts. -/
theorem IsOperand.apart {o : List Char} (h : IsOperand o) (m m' : Marked) : Apart m (marked o ++ m') := by
  apply apart_of_head
  intro c top r e
  right
  obtain ⟨d, t, rfl, hd⟩ := h.head
  have hcd : d = c := congrArg Prod.fst (List.cons.inj e).1
  subst hcd
  have hall : "|&=".toList.all (fun c => !opensOperand c) = true := by decide
  by_contra hs
  rw [Bool.not_eq_false, endsSymbol, List.contains_iff_mem] at hs
  have := List.all_eq_true.1 hall d hs
  rw [hd] at this
  cases this

section
variable {o : List Char} {ops : Level}

theorem IsOperand.cutFrom (h : IsOperand o) {sign : Bool} (hs : Solid ops sign (marked o)) (m : Marked) :
    cutFrom ops sign 0 (marked o ++ m) = (Cut.mk o []).append (cutFrom ops false 0 m) := by
  rw [cutFrom_append h.seam, h.signs_marked, hs, map_fst_marked]

theorem IsOperand.cut (h : IsOperand o) {m : Marked} (hs : Solid ops (signs true m) (marked o))
    (m' : Marked) : cut ops (m ++ (marked o ++ m')) =
      (cut ops m).append ((Cut.mk o []).append (Stencil.cutFrom ops false 0 m')) := by
  cases m with
  | nil =>
    rw [signs_nil] at hs
    rw [List.nil_append, cut_of_none (h.operatorAt_marked ops m'), h.cutFrom hs, cut_nil, Cut.append_lone]
    rfl
  | cons p m =>
    obtain ⟨c, top⟩ := p
    rw [signs_cons] at hs
    rw [List.cons_append, Stencil.cut, cutFrom_append_of_apart (h.apart m m'), h.cutFrom hs,
      ← Cut.push_append]
    rfl

end

theorem signs_marked (t : List Char) : signs true (marked t) = signPlace t := by
  have h : signs true (marked t) = ((marked t).map Prod.fst).foldl signAfter true := by
    rw [signs, List.foldl_map]
  rw [h, map_fst_marked, foldl_signAfter]

/-- All operands in which nothing is found there are cut out at the same place, into the same piece. -/
theorem exists_place {p : List Char} (hp : Balanced p) (q : List Char) (ops : Level) :
    ∃ P : Place, ∃ a b, P.left ++ a = Text.trimStart p ∧ Balanced a ∧
      ∀ o, IsOperand o → Solid ops (signPlace (Text.trimStart p)) (marked o) →
        cut ops (marked (Text.trim (p ++ (o ++ q)))) = P.fill (a ++ (o ++ b)) := by
  have hp' : Balanced (Text.trimStart p) := by
    obtain ⟨u, hu, e⟩ := Text.exists_trimStart p
    rw [e] at hp
    exact (balanced_of_blank hu).append_iff.1 hp
  obtain ⟨l, a, e, happ⟩ := Place.append_eq_fill (cut ops (marked (Text.trimStart p)))
  let k := cutFrom ops false 0 (marked (Text.trimEnd q))
  refine ⟨⟨l, k.tail⟩, a, k.head, ?_, ?_, ?_⟩
  · have hj : (cut ops (marked (Text.trimStart p))).join = Text.trimStart p := join_cut hp'
    rw [e, Place.join_fill] at hj
    simpa [Place.left, Place.right] using hj
  · have hall : ∀ x ∈ (cut ops (marked (Text.trimStart p))).pieces, Balanced x :=
      balanced_of_mem_pieces hp'
    apply hall
    rw [e, Place.mem_pieces_fill]
    exact .inl rfl
  · intro o ho hs
    rw [← signs_marked] at hs
    rw [Text.trim_append_tight ho.tight, marked_append hp', marked_append ho.balanced, ho.cut hs, happ,
      Cut.append_lone]

/-! ## Operands -/

/-- In the text `p ++ o ++ q` the operand `o` is left after cutting at these levels. -/
inductive OperandAt : List Level → List Char → List Char → List Char → Prop
  | alone {u o v : List Char} : u.all Text.isBlank = true → v.all Text.isBlank = true →
      Text.trim o = o → OperandAt [] u o v
  | piece {ops : Level} {ls : List Level} {u t v p o q : List Char} {P : Place} :
      u.all Text.isBlank = true → v.all Text.isBlank = true → Text.trim t = t →
      CutsInto ops [] t (P.fill (p ++ (o ++ q))) → OperandAt ls p o q →
      OperandAt (ops :: ls) (u ++ (P.left ++ p)) o (q ++ (P.right ++ v))

theorem trim_around {ops : Level} {u t v p o q : List Char} {P : Place}
    (hu : u.all Text.isBlank = true) (hv : v.all Text.isBlank = true) (ht : Text.trim t = t)
    (h : CutsInto ops [] t (P.fill (p ++ (o ++ q)))) :
    Text.trim (u ++ (P.left ++ p) ++ (o ++ (q ++ (P.right ++ v)))) = t := by
  have hj := h.join_eq
  rw [Place.join_fill] at hj
  have e : u ++ (P.left ++ p) ++ (o ++ (q ++ (P.right ++ v))) = u ++ (t ++ v) := by
    rw [← hj]
    simp
  rw [e, Text.trim_blank_append hu, Text.trim_append_blank hv, ht]

namespace Expr

variable {inner : List Char → Except Fault Expr} {ops : Level} {ls : List Level} {t : List Char}

theorem climb_of_unbalanced (h : ¬ Balanced t) : climb inner (ops :: ls) t = .error .unbalanced := by
  have hm : marks (Text.trim t) = none := marks_eq_none_iff.2 fun hb => h (balanced_trim.1 hb)
  simp only [climb, hm]
  rfl

theorem ofToken_cases {e : Expr} (h : ofToken t = .ok e) : (∃ l, e = literal l) ∨
    (isIdentifier t = true ∧ e = identifier (String.ofList t)) ∨ e = raw (String.ofList t) := by
  unfold ofToken at h
  split at h
  · rename_i n _
    cases n <;> cases h
    exact .inl ⟨_, rfl⟩
  · split at h
    · cases h
      exact .inl ⟨_, rfl⟩
    · split at h
      · cases h
        exact .inl ⟨_, rfl⟩
      · split at h <;> cases h
        · exact .inr (.inl ⟨‹_›, rfl⟩)
        · exact .inr (.inr rfl)

theorem ofNested_of_unbalanced (h : ¬ Balanced t) (n : Nat) : ofNested n t = .error .unbalanced := by
  rw [ofNested_eq]
  exact climb_of_unbalanced h

theorem balanced_of_ok {n : Nat} {e : Expr} (h : ofNested n t = .ok e) : Balanced t := by
  by_contra hb
  rw [ofNested_of_unbalanced hb] at h
  cases h

theorem climb_of_balanced (h : Balanced t) (ops : Level) (ls : List Level) :
    climb inner (ops :: ls) t = (cut ops (marked (Text.trim t))).read (climb inner ls) :=
  climb_cons (balanced_trim.2 h) ops ls

theorem balanced_of_piece (h : Balanced t) {x : List Char}
    (hx : x ∈ (cut ops (marked (Text.trim t))).pieces) : Balanced x :=
  balanced_of_mem_pieces (balanced_trim.2 h) x hx

theorem climb_fails_iff (h : Balanced t) : Fails (climb inner (ops :: ls) t) ↔
    ∃ x ∈ (cut ops (marked (Text.trim t))).pieces, Fails (climb inner ls x) := by
  rw [climb_of_balanced h, Cut.read_fails_iff]

end Expr

namespace OperandAt

variable {ls : List Level} {p o q : List Char}

/-- What stands before an operand is closed, and so is the operand. -/
theorem balanced (h : OperandAt ls p o q) (hb : Balanced (p ++ (o ++ q))) :
    Balanced p ∧ Balanced o ∧ Balanced q := by
  induction h with
  | @alone u o v hu hv _ =>
    have ho : Balanced (o ++ v) := (balanced_of_blank hu).append_iff.1 hb
    exact ⟨balanced_of_blank hu, (balanced_append_flat (isFlat_of_all_blank hv)).1 ho,
      balanced_of_blank hv⟩
  | @piece ops ls u t v p o q P hu hv ht hc _ ih =>
    have hbt : Balanced t := by
      rw [← trim_around hu hv ht hc]
      exact balanced_trim.2 hb
    have hall := hc.balanced_of_mem hbt
    have hl : Balanced P.left :=
      Place.balanced_left fun y hy => hall y (Place.mem_pieces_fill.2 (.inr hy))
    obtain ⟨hp, ho, -⟩ := ih (hall _ (Place.mem_pieces_fill.2 (.inl rfl)))
    have hup : Balanced (u ++ (P.left ++ p)) := (balanced_of_blank hu).append (hl.append hp)
    rw [hup.append_iff, ho.append_iff] at hb
    exact ⟨hup, ho, hb⟩

end OperandAt

theorem OperandAt.of_cut {ops : Level} {ls : List Level} {u t v p o q : List Char} {P : Place}
    (hu : u.all Text.isBlank = true) (hv : v.all Text.isBlank = true) (ht : Text.trim t = t)
    (hb : Balanced t) (hk : cut ops (marked t) = P.fill (p ++ (o ++ q))) (h : OperandAt ls p o q) :
    OperandAt (ops :: ls) (u ++ (P.left ++ p)) o (q ++ (P.right ++ v)) :=
  .piece hu hv ht (hk ▸ cutsInto_cut hb) h

theorem Inert.operandAt {u o v : List Char} (h : Inert o) (hu : u.all Text.isBlank = true)
    (hv : v.all Text.isBlank = true) (ls : List Level) : OperandAt ls u o v := by
  have ht := h.tight.trim
  induction ls generalizing u v with
  | nil => exact .alone hu hv ht
  | cons ops ls ih =>
    have hk : Stencil.cut ops (marked o) = Place.fill ⟨[], []⟩ ([] ++ (o ++ [])) := by
      have := h.cut (m := []) (h.solid ops true) []
      rw [List.nil_append, List.append_nil] at this
      rw [this, cut_nil, Place.fill_nil]
      simp [Stencil.cutFrom, Cut.append_lone]
    have := OperandAt.of_cut hu hv ht h.balanced hk (ih rfl rfl)
    simpa [Place.left, Place.right] using this

/-- At levels whose operators are not found there is nothing to cut. -/
theorem OperandAt.over (above : List Level) {ls : List Level} {p o q : List Char}
    (ht : Text.trim (p ++ (o ++ q)) = p ++ (o ++ q)) (hb : Balanced (p ++ (o ++ q)))
    (hk : ∀ ops ∈ above, cut ops (marked (p ++ (o ++ q))) = ⟨p ++ (o ++ q), []⟩)
    (h : OperandAt ls p o q) : OperandAt (above ++ ls) p o q := by
  induction above with
  | nil => exact h
  | cons ops above ih =>
    have hk' : cut ops (marked (p ++ (o ++ q))) = Place.fill ⟨[], []⟩ (p ++ (o ++ q)) :=
      hk ops List.mem_cons_self
    have h' := ih fun ops h => hk ops (List.mem_cons_of_mem _ h)
    have := OperandAt.of_cut (u := []) (v := []) rfl rfl ht hb hk' h'
    simpa [Place.left, Place.right] using this

/-- The operand behind the only operator of the level. -/
theorem Inert.operandAt_last {o : List Char} (h : Inert o) (l : List Char) (op : Operator)
    {v : List Char} {ops : Level} (hv : v.all Text.isBlank = true)
    (ht : Text.trim (l ++ (op.chars ++ (v ++ o))) = l ++ (op.chars ++ (v ++ o)))
    (hb : Balanced (l ++ (op.chars ++ (v ++ o))))
    (hk : Stencil.cut ops (marked (l ++ (op.chars ++ (v ++ o)))) = ⟨l, [(op, v ++ o)]⟩) (ls : List Level) :
    OperandAt (ops :: ls) (l ++ (op.chars ++ v)) o [] := by
  have hk' : Stencil.cut ops (marked (l ++ (op.chars ++ (v ++ o)))) =
      Place.fill ⟨[(l, op)], []⟩ (v ++ (o ++ [])) := by
    rw [hk, List.append_nil]
    rfl
  have := OperandAt.of_cut (u := []) (v := []) rfl rfl ht hb hk' (h.operandAt (v := []) hv rfl ls)
  simpa [Place.left, Place.right] using this

/-! ## Operands that cannot be read -/

section
variable {inner : List Char → Except Fault Expr}

theorem exists_operandAt {ls : List Level} {t : List Char} (ht : Balanced t)
    (h : Fails (Expr.climb inner ls t)) : ∃ p o q, t = p ++ (o ++ q) ∧ OperandAt ls p o q ∧
      Fails (Expr.ofOperand inner o) := by
  induction ls generalizing t with
  | nil =>
    obtain ⟨u, v, hu, hv, e⟩ := Text.exists_trim t
    exact ⟨u, Text.trim t, v, e, .alone hu hv (Text.trim_trim t), h⟩
  | cons ops ls ih =>
    obtain ⟨x, hx, hf⟩ := (Expr.climb_fails_iff ht).1 h
    obtain ⟨p, o, q, rfl, hop, ho⟩ := ih (Expr.balanced_of_piece ht hx) hf
    obtain ⟨P, hP, hj, -⟩ := Place.exists_of_mem (balanced_trim.2 ht) hx
    obtain ⟨u, v, hu, hv, e⟩ := Text.exists_trim t
    have hc : CutsInto ops [] (Text.trim t) _ := cutsInto_cut (balanced_trim.2 ht)
    rw [hP] at hc
    refine ⟨_, o, _, ?_, .piece hu hv (Text.trim_trim t) hc hop, ho⟩
    rw [← hj] at e
    rw [e]
    simp

theorem OperandAt.fails {ls : List Level} {p o q : List Char} (h : OperandAt ls p o q)
    (hl : ls ⊆ levels) (hb : Balanced (p ++ (o ++ q))) (hf : Fails (Expr.ofOperand inner o)) :
    Fails (Expr.climb inner ls (p ++ (o ++ q))) := by
  induction h with
  | @alone u o v hu hv ho =>
    rw [Expr.climb, Text.trim_blank_append hu, Text.trim_append_blank hv, ho]
    exact hf
  | @piece ops ls u t v p o q P hu hv ht hc _ ih =>
    have e := trim_around hu hv ht hc
    have hbt : Balanced t := e ▸ balanced_trim.2 hb
    have hk := (cutsInto_iff (hl List.mem_cons_self) hbt).1 hc
    have hx : p ++ (o ++ q) ∈ (cut ops (marked t)).pieces := by
      rw [← hk]
      exact Place.mem_pieces_fill.2 (.inl rfl)
    rw [Expr.climb_fails_iff hb, e]
    refine ⟨_, hx, ih (fun _ h => hl (List.mem_cons_of_mem _ h)) ?_ hf⟩
    exact balanced_of_mem_pieces hbt _ hx

end

/-! ## Exchanging an operand -/

section
variable {inner : List Char → Except Fault Expr} {ls : List Level} {p o q : List Char}

/-- Another operand in the place of this one is cut out at the same place. -/
theorem cut_exchange {ops : Level} {u t v o' : List Char} {P : Place} (hl : ops ∈ levels)
    (hu : u.all Text.isBlank = true) (hv : v.all Text.isBlank = true) (ht : Text.trim t = t)
    (hbt : Balanced t) (hc : CutsInto ops [] t (P.fill (p ++ (o ++ q))))
    (hp : Balanced (u ++ (P.left ++ p))) (ho : Inert o) (ho' : IsOperand o')
    (hs : Solid ops (signPlace (Text.trimStart (u ++ (P.left ++ p)))) (marked o')) :
    cut ops (marked (Text.trim (u ++ (P.left ++ p) ++ (o' ++ (q ++ (P.right ++ v)))))) =
      P.fill (p ++ (o' ++ q)) := by
  obtain ⟨P', a, b, hla, -, hcut⟩ := exists_place hp (q ++ (P.right ++ v)) ops
  -- The place where operands are cut out is the place of this one.
  obtain ⟨rfl, rfl, rfl⟩ : P' = P ∧ a = p ∧ b = q := by
    have hfill := hcut o ho.toIsOperand (ho.solid ops _)
    rw [trim_around hu hv ht hc, ← (cutsInto_iff hl hbt).1 hc] at hfill
    apply Place.fill_inj ho.tight.ne_nil hfill.symm
    have hj := hc.join_eq
    rw [Place.join_fill] at hj
    rw [hla, Text.trimStart_blank_append hu]
    apply Text.trimStart_of_trim_eq (b := o ++ (q ++ P.right))
    have e : P.left ++ p ++ (o ++ (q ++ P.right)) = t := by
      rw [← hj]
      simp
    rw [e, ht]
  exact hcut o' ho' hs

/-- Where `o` is an operand at some level on the way down, no symbol of the level is found in `o'` in
its place. -/
def Fits (ls : List Level) (p o o' : List Char) : Prop :=
  ∀ ops ls' s q, ops :: ls' <:+ ls → s <:+ p → OperandAt (ops :: ls') s o q →
    Solid ops (signPlace (Text.trimStart s)) (marked o')

theorem Inert.fits {o' : List Char} (h : Inert o') (ls : List Level) (p o : List Char) : Fits ls p o o' :=
  fun ops _ _ _ _ _ _ => h.solid ops _

/-- An operand makes one leaf of the tree, and another operand that fits in its place makes the same
leaf. -/
theorem OperandAt.replace (h : OperandAt ls p o q) (hl : ls ⊆ levels) (ho : Inert o)
    (hb : Balanced (p ++ (o ++ q))) {e : Expr} (he : Expr.climb inner ls (p ++ (o ++ q)) = .ok e) :
    ∃ c : Context, ∃ l, Expr.ofOperand inner o = .ok l ∧ e = c.fill l ∧
      ∀ o', IsOperand o' → Fits ls p o o' →
        Expr.climb inner ls (p ++ (o' ++ q)) = (Expr.ofOperand inner o').map c.fill := by
  induction h generalizing e with
  | @alone u o v hu hv _ =>
    have ht : ∀ x, IsOperand x → Text.trim (u ++ (x ++ v)) = x :=
      fun x hx => hx.tight.trim_between hu hv
    rw [Expr.climb, ht o ho.toIsOperand] at he
    refine ⟨.hole, e, he, rfl, ?_⟩
    intro o' ho' _
    rw [Expr.climb, ht o' ho']
    cases Expr.ofOperand inner o' <;> rfl
  | @piece ops ls u t v p o q P hu hv ht hc hop ih =>
    have hwhole : OperandAt (ops :: ls) (u ++ (P.left ++ p)) o (q ++ (P.right ++ v)) :=
      .piece hu hv ht hc hop
    obtain ⟨hp, -, hq⟩ := hwhole.balanced hb
    have hbt : Balanced t := trim_around hu hv ht hc ▸ balanced_trim.2 hb
    have hcut : ∀ x, IsOperand x →
        Solid ops (signPlace (Text.trimStart (u ++ (P.left ++ p)))) (marked x) → _ := fun x hx hs =>
      cut_exchange (hl List.mem_cons_self) hu hv ht hbt hc hp ho hx hs
    rw [Expr.climb_of_balanced hb, hcut o ho.toIsOperand (ho.solid ops _)] at he
    obtain ⟨d, l', hd, rfl, hread⟩ := Cut.read_fill he
    have hx : Balanced (p ++ (o ++ q)) :=
      hc.balanced_of_mem hbt _ (Place.mem_pieces_fill.2 (.inl rfl))
    obtain ⟨c, l, hol, rfl, hrest⟩ := ih (fun _ h => hl (List.mem_cons_of_mem _ h)) ho hx hd
    refine ⟨d.comp c, l, hol, (Context.fill_comp d c l).symm, ?_⟩
    intro o' ho' hfit
    have hb' := hp.append (ho'.balanced.append hq)
    have hsolid := hfit ops ls _ _ List.suffix_rfl List.suffix_rfl hwhole
    have hfit' : Fits ls p o o' := fun ops' ls' s q' hls hs hop' =>
      hfit ops' ls' s q' (hls.trans (List.suffix_cons ops ls))
        (hs.trans ⟨u ++ P.left, List.append_assoc u P.left p⟩) hop'
    rw [Expr.climb_of_balanced hb', hcut o' ho' hsolid, hread, hrest o' ho' hfit']
    cases Expr.ofOperand inner o' with
    | error f => rfl
    | ok m => exact congrArg Except.ok (Context.fill_comp d c m).symm

theorem OperandAt.exchange (h : OperandAt ls p o q) (hl : ls ⊆ levels) (ho : Inert o)
    (hb : Balanced (p ++ (o ++ q))) {e : Expr} (he : Expr.climb inner ls (p ++ (o ++ q)) = .ok e) :
    ∃ c : Context, ∃ l, Expr.ofOperand inner o = .ok l ∧ e = c.fill l ∧
      ∀ o', Inert o' → Expr.climb inner ls (p ++ (o' ++ q)) = (Expr.ofOperand inner o').map c.fill := by
  obtain ⟨c, l, hol, hel, hrest⟩ := h.replace hl ho hb he
  exact ⟨c, l, hol, hel, fun o' ho' => hrest o' ho'.toIsOperand (ho'.fits ls p o)⟩

/-- What stands in brackets, or in another inert operand, does not decide about failure. -/
theorem fails_exchange {o' : List Char} (ho : Inert o) (ho' : Inert o')
    (h : ∀ u v, ¬ Fails (Expr.climb inner [] (u ++ (o ++ v))))
    (h' : ∀ u v, ¬ Fails (Expr.climb inner [] (u ++ (o' ++ v)))) (hp : Balanced p) :
    Fails (Expr.climb inner ls (p ++ (o ++ q))) ↔ Fails (Expr.climb inner ls (p ++ (o' ++ q))) := by
  induction ls generalizing p q with
  | nil => exact iff_of_false (h p q) (h' p q)
  | cons ops ls ih =>
    have hiff : ∀ x, Inert x → (Balanced (p ++ (x ++ q)) ↔ Balanced q) := by
      intro x hx
      rw [hp.append_iff, hx.balanced.append_iff]
    by_cases hq : Balanced q
    · obtain ⟨P, a, b, -, ha, hcut⟩ := exists_place hp q ops
      have hx : ∀ x, Inert x → (Fails (Expr.climb inner (ops :: ls) (p ++ (x ++ q))) ↔
          Fails (Expr.climb inner ls (a ++ (x ++ b))) ∨ ∃ y ∈ P.others, Fails (Expr.climb inner ls y)) := by
        intro x hx
        rw [Expr.climb_fails_iff ((hiff x hx).2 hq), hcut x hx.toIsOperand (hx.solid ops _)]
        simp only [Place.mem_pieces_fill, or_and_right, exists_or, exists_eq_left]
      rw [hx o ho, hx o' ho', ih ha]
    · have hf : ∀ x, Inert x → Fails (Expr.climb inner (ops :: ls) (p ++ (x ++ q))) := by
        intro x hx
        rw [Expr.climb_of_unbalanced fun hb => hq ((hiff x hx).1 hb)]
        exact fails_error _
      exact iff_of_true (hf o ho) (hf o' ho')

end

end Stencil
