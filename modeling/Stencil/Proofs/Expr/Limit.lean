import Mathlib.Data.List.Infix
import Stencil.Proofs.Expr.Containment

/-!
# The nesting limit

A text is read alike under any two limits that its own brackets keep to. Each pair of brackets around it
takes one from the limit, and where nothing is left to take the brackets are raw text, with all that is in
them.
-/

namespace Stencil

/-- Outside quotes brackets nest at most so deep. -/
def NestsAtMost (m : Nat) (t : List Char) : Prop :=
  ∀ p, p <+: t → ∀ s, Scan.start.run p = some s → s.depth ≤ m

instance (m : Nat) (t : List Char) : Decidable (NestsAtMost m t) :=
  decidable_of_iff (∀ p ∈ t.inits, ∀ s ∈ Scan.start.run p, s.depth ≤ m) <| by
    simp only [NestsAtMost, List.mem_inits, Option.mem_def]

namespace NestsAtMost

variable {m : Nat} {t : List Char}

theorem between {a x b : List Char} (h : NestsAtMost m (a ++ (x ++ b))) (ha : Balanced a) :
    NestsAtMost m x := by
  intro p hp s hs
  have hpre : a ++ p <+: a ++ (x ++ b) :=
    (List.prefix_append_right_inj a).2 (hp.trans (List.prefix_append x b))
  apply h _ hpre
  rw [Scan.run_append_of ha, hs]

theorem trim (h : NestsAtMost m t) : NestsAtMost m (Text.trim t) := by
  obtain ⟨u, v, hu, -, e⟩ := Text.exists_trim t
  rw [e] at h
  exact h.between (balanced_of_blank hu)

theorem of_mem_pieces (h : NestsAtMost m t) (hb : Balanced t) {ops : Level} {x : List Char}
    (hx : x ∈ (cut ops (marked t)).pieces) : NestsAtMost m x := by
  obtain ⟨P, -, hj, hl⟩ := Place.exists_of_mem hb hx
  rw [← hj] at h
  exact h.between hl

theorem pos_of_bracketed (h : NestsAtMost m (bracketed t)) : 0 < m :=
  h ['('] ⟨t ++ [')'], rfl⟩ ⟨1, none⟩ rfl

theorem of_bracketed (h : NestsAtMost (m + 1) (bracketed t)) : NestsAtMost m t := by
  intro p hp s hs
  have hpre : '(' :: p <+: bracketed t :=
    (List.prefix_cons_inj '(').2 (hp.trans (List.prefix_append t [')']))
  have hrun : Scan.start.run ('(' :: p) = some (s.lift 1) := Scan.run_lift 1 hs
  have hd : s.depth + 1 ≤ m + 1 := h _ hpre _ hrun
  omega

end NestsAtMost

/-! ## Limits that a text keeps to -/

theorem Cut.read_congr {rd rd' : List Char → Except Fault Expr} {k : Cut}
    (h : ∀ x ∈ k.pieces, rd x = rd' x) : k.read rd = k.read rd' := by
  obtain ⟨t, a⟩ := k
  have ha : ∀ l, a.foldlM (join1 rd) l = a.foldlM (join1 rd') l := by
    intro l
    induction a generalizing l with
    | nil => rfl
    | cons p a ih =>
      have hp : rd p.2 = rd' p.2 := h p.2 (by simp [pieces])
      have hr : ∀ l, a.foldlM (join1 rd) l = a.foldlM (join1 rd') l := by
        apply ih
        intro x hx
        apply h
        simp only [pieces, List.map_cons, List.mem_cons] at hx ⊢
        tauto
      simp only [List.foldlM_cons, join1, hp, hr]
  simp only [read, readWith, h t List.mem_cons_self, ha]

section
variable {rd rd' : List Char → Except Fault Expr} {m : Nat}
  (h : ∀ s, NestsAtMost m (bracketed s) → rd s = rd' s) {t : List Char} (ht : NestsAtMost m t)
include h ht

theorem ofOperand_congr : Expr.ofOperand rd t = Expr.ofOperand rd' t := by
  by_cases hne : t = []
  · rw [hne]
    rfl
  · rw [ofOperand_of_ne_nil hne, ofOperand_of_ne_nil hne]
    cases he : enclosed t with
    | none => rfl
    | some s =>
      have hs : rd s = rd' s := h s (by rw [bracketed, ← eq_of_enclosed he]; exact ht)
      simp only [hs]

theorem climb_congr_inside (ls : List Level) : Expr.climb rd ls t = Expr.climb rd' ls t := by
  induction ls generalizing t with
  | nil => exact ofOperand_congr h ht.trim
  | cons ops ls ih =>
    by_cases hb : Balanced t
    · rw [Expr.climb_of_balanced hb, Expr.climb_of_balanced hb]
      apply Cut.read_congr
      intro x hx
      exact ih (ht.trim.of_mem_pieces (balanced_trim.2 hb) hx)
    · rw [Expr.climb_of_unbalanced hb, Expr.climb_of_unbalanced hb]

end

theorem NestsAtMost.ofNested_eq {m : Nat} {t : List Char} (ht : NestsAtMost m t) {a b : Nat} (ha : m ≤ a)
    (hb : m ≤ b) : Expr.ofNested a t = Expr.ofNested b t := by
  induction m generalizing t a b with
  | zero =>
    rw [Expr.ofNested_eq, Expr.ofNested_eq]
    apply climb_congr_inside _ ht
    intro s hs
    exact absurd hs.pos_of_bracketed (Nat.lt_irrefl 0)
  | succ m ih =>
    obtain ⟨a, rfl⟩ := Nat.exists_eq_add_of_le' ha
    obtain ⟨b, rfl⟩ := Nat.exists_eq_add_of_le' hb
    rw [Expr.ofNested_eq, Expr.ofNested_eq]
    apply climb_congr_inside _ ht
    intro s hs
    exact ih hs.of_bracketed (Nat.le_add_left m a) (Nat.le_add_left m b)

/-! ## Brackets around a text -/

/-- A text in so many pairs of brackets. -/
def wrapped (n : Nat) (t : List Char) : List Char := List.replicate n '(' ++ (t ++ List.replicate n ')')

theorem wrapped_zero (t : List Char) : wrapped 0 t = t := by simp [wrapped]

theorem wrapped_succ (n : Nat) (t : List Char) : wrapped (n + 1) t = bracketed (wrapped n t) := by
  have hr : List.replicate (n + 1) ')' = List.replicate n ')' ++ [')'] := List.replicate_succ'
  simp [wrapped, bracketed, List.replicate_succ (a := '('), hr]

theorem wrapped_add (n k : Nat) (t : List Char) : wrapped (n + k) t = wrapped n (wrapped k t) := by
  induction n with
  | zero => rw [Nat.zero_add, wrapped_zero]
  | succ n ih => rw [Nat.add_right_comm, wrapped_succ, wrapped_succ, ih]

theorem balanced_wrapped {t : List Char} (h : Balanced t) (n : Nat) : Balanced (wrapped n t) := by
  induction n with
  | zero => rwa [wrapped_zero]
  | succ n ih =>
    rw [wrapped_succ]
    exact run_bracketed ih

theorem ofNested_bracketed {t : List Char} (h : Balanced t) (n : Nat) : Expr.ofNested n (bracketed t) =
    .ok (match Expr.inside n t with | .ok e => e | .error _ => .raw (String.ofList (bracketed t))) := by
  have hi := inert_bracketed h
  have hc : Expr.climb (Expr.inside n) (levels ++ []) (bracketed t) =
      Expr.climb (Expr.inside n) [] (bracketed t) :=
    Expr.climb_of_solid hi.tight.trim hi.toIsOperand levels [] fun ops _ => hi.solid ops true
  rw [Expr.ofNested_eq, ← List.append_nil levels, hc, Expr.climb, hi.tight.trim]
  exact ofOperand_bracketed h

theorem ofNested_wrapped {k : Nat} {t : List Char} {e : Expr} (h : Expr.ofNested k t = .ok e) (n : Nat) :
    Expr.ofNested (k + n) (wrapped n t) = .ok e := by
  induction n with
  | zero => rwa [wrapped_zero]
  | succ n ih =>
    have hb : Balanced (wrapped n t) := balanced_wrapped (Expr.balanced_of_ok h) n
    rw [wrapped_succ, ofNested_bracketed hb, ← Nat.add_assoc, Expr.inside, ih]

/-- The brackets that the limit has no room for stay raw text. -/
theorem ofNested_too_deep {t : List Char} (h : Balanced t) (n k : Nat) :
    Expr.ofNested n (wrapped (n + (k + 1)) t) = .ok (.raw (String.ofList (wrapped (k + 1) t))) := by
  have hzero : Expr.ofNested 0 (wrapped (k + 1) t) = .ok (.raw (String.ofList (wrapped (k + 1) t))) := by
    rw [wrapped_succ, ofNested_bracketed (balanced_wrapped h k), Expr.inside]
  have := ofNested_wrapped hzero n
  rwa [Nat.zero_add, ← wrapped_add] at this

theorem allBlank_wrapped {text : String} (h : Text.allBlank text = false) (n : Nat) :
    Text.allBlank (String.ofList (wrapped n text.toList)) = false := by
  simp only [Text.allBlank, String.toList_ofList, wrapped, List.all_append] at h ⊢
  simp [h]

/-- Wrapped in brackets a text that can be read gives the same tree as long as all brackets together keep
to the limit of 256. Of more than 256 pairs of brackets those past the limit stay raw text. -/
theorem limit_exact {text : String} (hb : Text.allBlank text = false)
    (hok : ¬ Fails (Expr.ofNested maxNesting text.toList)) (n : Nat) :
    (∀ m, NestsAtMost m text.toList → n + m ≤ 256 →
      Reader.binary.read (String.ofList (wrapped n text.toList)) = Reader.binary.read text) ∧
    (256 < n → Reader.binary.read (String.ofList (wrapped n text.toList)) =
      .raw (String.ofList (wrapped (n - 256) text.toList))) := by
  obtain ⟨e, he⟩ := not_fails_iff.1 hok
  have hwrapped := allBlank_wrapped hb n
  constructor
  · intro m hm hle
    have hk : Expr.ofNested (256 - n) text.toList = .ok e := by
      rw [hm.ofNested_eq (b := maxNesting) (by omega) (by unfold maxNesting; omega), he]
    have hn : Expr.ofNested maxNesting (wrapped n text.toList) = .ok e := by
      have := ofNested_wrapped hk n
      rwa [Nat.sub_add_cancel (by omega)] at this
    rw [read_of_ok hb he, read_of_ok hwrapped (by rwa [String.toList_ofList])]
  · intro hlt
    obtain ⟨k, rfl⟩ : ∃ k, n = 256 + (k + 1) := ⟨n - 257, by omega⟩
    apply read_of_ok hwrapped
    rw [String.toList_ofList, Nat.add_sub_cancel_left]
    exact ofNested_too_deep (Expr.balanced_of_ok he) 256 k

/-- A text with brackets of its own: the last pair it is read in, and two pairs too many. -/
theorem limit_exact_product :
    Text.allBlank "a * (b - 1)" = false ∧
    ¬ Fails (Expr.ofNested maxNesting "a * (b - 1)".toList) ∧
    Reader.binary.read (String.ofList (wrapped 255 "a * (b - 1)".toList)) =
      .binary (.identifier "a") .mul (.binary (.identifier "b") .sub (.literal (.int 1))) ∧
    Reader.binary.read (String.ofList (wrapped 258 "a * (b - 1)".toList)) = .raw "((a * (b - 1)))" := by
  have hb : Text.allBlank "a * (b - 1)" = false := by decide +kernel
  have hok : ¬ Fails (Expr.ofNested maxNesting "a * (b - 1)".toList) :=
    not_fails_iff.2 ⟨.binary (.identifier "a") .mul (.binary (.identifier "b") .sub (.literal (.int 1))),
      by decide +kernel⟩
  refine ⟨hb, hok, ?_, ?_⟩
  · rw [(limit_exact hb hok 255).1 1 (by decide +kernel) (by decide)]
    decide +kernel
  · rw [(limit_exact hb hok 258).2 (by decide)]
    decide +kernel

end Stencil
