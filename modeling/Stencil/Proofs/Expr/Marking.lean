import Stencil.Expr.Cut

/-!
# Marks of texts put together

A scan of two texts in a row is a scan of the first and then of the second. `marked` marks a text
whether or not it is balanced; for a balanced text these are its marks. What stands in brackets is
scanned as it would be outside, but one bracket deeper, and so its marks are all false.
-/

namespace Stencil

namespace Scan

def run (s : Scan) (t : List Char) : Option Scan := t.foldlM step s

/-- The same place inside `d` more brackets. -/
def lift (d : Nat) (s : Scan) : Scan := ⟨s.depth + d, s.quote⟩

@[simp] theorem run_nil (s : Scan) : s.run [] = some s := rfl

theorem run_cons (s : Scan) (c : Char) (t : List Char) :
    s.run (c :: t) = (s.step c).bind (·.run t) := rfl

theorem run_append (s : Scan) (t u : List Char) : s.run (t ++ u) = (s.run t).bind (·.run u) := by
  unfold run
  rw [List.foldlM_append]
  rfl

theorem run_append_of {s s' : Scan} {t u : List Char} (h : s.run t = some s') :
    s.run (t ++ u) = s'.run u := by
  rw [run_append, h]; rfl

@[simp] theorem lift_zero (s : Scan) : s.lift 0 = s := rfl

theorem step_lift {s s' : Scan} {c : Char} (d : Nat) (h : s.step c = some s') :
    (s.lift d).step c = some (s'.lift d) := by
  obtain ⟨n, q⟩ := s
  show (Scan.mk (n + d) q).step c = some (s'.lift d)
  cases q with
  | some q =>
    simp only [step, Option.some.injEq] at h ⊢
    subst h
    split <;> rfl
  | none =>
    by_cases hq : isQuote c = true
    · simp only [step, hq, if_true, Option.some.injEq] at h ⊢
      subst h; rfl
    simp only [step, hq, Bool.false_eq_true, if_false] at h ⊢
    by_cases ho : c = '('
    · simp only [if_pos ho, Option.some.injEq] at h ⊢
      subst h
      simp [lift, Nat.add_right_comm]
    simp only [if_neg ho] at h ⊢
    by_cases hc : c = ')'
    · have hn : n ≠ 0 := fun hn => by simp [hc, hn] at h
      have hd : n + d ≠ 0 := by omega
      simp only [if_pos hc, if_neg hn, if_neg hd, Option.some.injEq] at h ⊢
      subst h
      rw [show n + d - 1 = n - 1 + d by omega]
      rfl
    · simp only [if_neg hc, Option.some.injEq] at h ⊢
      subst h; rfl

theorem run_lift {s s' : Scan} {t : List Char} (d : Nat) (h : s.run t = some s') :
    (s.lift d).run t = some (s'.lift d) := by
  induction t generalizing s with
  | nil => cases h; rfl
  | cons c t ih =>
    rw [run_cons] at h
    obtain ⟨s₁, h₁, h₂⟩ := Option.bind_eq_some_iff.1 h
    rw [run_cons, step_lift d h₁]
    exact ih h₂

end Scan

/-! ## Marked texts -/

/-- The marks of the rest of a text; after a bracket that closes nothing they mean nothing. -/
def markedFrom : Scan → List Char → Marked
  | _, [] => []
  | s, c :: r => (c, s.isTop c) :: markedFrom ((s.step c).getD s) r

def marked (t : List Char) : Marked := markedFrom .start t

/-- Brackets and quotes balance. -/
def Balanced (t : List Char) : Prop := Scan.start.run t = some .start

instance (t : List Char) : Decidable (Balanced t) :=
  inferInstanceAs (Decidable (Scan.start.run t = some .start))

@[simp] theorem markedFrom_nil (s : Scan) : markedFrom s [] = [] := rfl

@[simp] theorem map_fst_markedFrom (s : Scan) (t : List Char) :
    (markedFrom s t).map Prod.fst = t := by
  induction t generalizing s with
  | nil => rfl
  | cons c t ih => rw [markedFrom, List.map_cons, ih]

@[simp] theorem map_fst_marked (t : List Char) : (marked t).map Prod.fst = t :=
  map_fst_markedFrom .start t

theorem marked_ne_nil {t : List Char} (h : t ≠ []) : marked t ≠ [] := by
  intro e
  have := congrArg (List.map Prod.fst) e
  rw [map_fst_marked] at this
  exact h this

@[simp] theorem map_fst_map (t : List Char) (b : Bool) : (t.map (·, b)).map Prod.fst = t := by
  rw [List.map_map]
  exact List.map_id t

theorem markedFrom_append {s s' : Scan} {t : List Char} (h : s.run t = some s') (u : List Char) :
    markedFrom s (t ++ u) = markedFrom s t ++ markedFrom s' u := by
  induction t generalizing s with
  | nil => cases h; rfl
  | cons c t ih =>
    rw [Scan.run_cons] at h
    obtain ⟨s₁, h₁, h₂⟩ := Option.bind_eq_some_iff.1 h
    simp only [List.cons_append, markedFrom, h₁, Option.getD_some, ih h₂]

theorem marked_append {t : List Char} (h : Balanced t) (u : List Char) :
    marked (t ++ u) = marked t ++ marked u := markedFrom_append h u

theorem marksFrom_eq {s : Scan} {t : List Char} (h : s.run t = some .start) :
    marksFrom s t = some ((markedFrom s t).map Prod.snd) := by
  induction t generalizing s with
  | nil => cases h; rfl
  | cons c t ih =>
    rw [Scan.run_cons] at h
    obtain ⟨s₁, h₁, h₂⟩ := Option.bind_eq_some_iff.1 h
    simp only [marksFrom, h₁, ih h₂, Option.map_some, markedFrom, List.map_cons, Option.getD_some]

theorem run_of_marksFrom {s : Scan} {t : List Char} {m : List Bool} (h : marksFrom s t = some m) :
    s.run t = some .start := by
  induction t generalizing s m with
  | nil =>
    unfold marksFrom at h
    split at h
    · rename_i hs; rw [hs]; rfl
    · cases h
  | cons c t ih =>
    unfold marksFrom at h
    split at h
    · cases h
    · rename_i s₁ hs₁
      obtain ⟨m', hm, -⟩ := Option.map_eq_some_iff.1 h
      rw [Scan.run_cons, hs₁]
      exact ih hm

theorem marks_eq_none_iff {t : List Char} : marks t = none ↔ ¬ Balanced t := by
  constructor
  · intro h hb
    rw [marks, marksFrom_eq hb] at h
    cases h
  · intro h
    cases hm : marks t with
    | none => rfl
    | some m => exact absurd (run_of_marksFrom hm) h

theorem Balanced.marks {t : List Char} (h : Balanced t) :
    marks t = some ((marked t).map Prod.snd) := marksFrom_eq h

theorem zip_map_marked (t : List Char) : t.zip ((marked t).map Prod.snd) = marked t := by
  have h : ∀ m : Marked, (m.map Prod.fst).zip (m.map Prod.snd) = m := by
    intro m
    induction m with
    | nil => rfl
    | cons p m ih => rw [List.map_cons, List.map_cons, List.zip_cons_cons, ih]
  have := h (marked t)
  rwa [map_fst_marked] at this

theorem Balanced.append {t u : List Char} (ht : Balanced t) (hu : Balanced u) : Balanced (t ++ u) := by
  unfold Balanced
  rw [Scan.run_append_of ht]
  exact hu

/-! ## Texts without brackets and quotes -/

def isFlat (c : Char) : Bool := !Scan.isQuote c && c != '(' && c != ')'

theorem step_start_of_flat {c : Char} (h : isFlat c) : Scan.start.step c = some .start := by
  simp only [isFlat, Bool.and_eq_true, Bool.not_eq_true', bne_iff_ne] at h
  simp [Scan.step, Scan.start, h.1.1, h.1.2, h.2]

theorem isTop_start_of_flat {c : Char} (h : isFlat c) : Scan.start.isTop c = true := by
  simpa [Scan.isTop, isFlat] using h

theorem balanced_of_flat {t : List Char} (h : ∀ c ∈ t, isFlat c) : Balanced t := by
  induction t with
  | nil => rfl
  | cons c t ih =>
    unfold Balanced
    rw [Scan.run_cons, step_start_of_flat (h c List.mem_cons_self)]
    exact ih fun d hd => h d (List.mem_cons_of_mem _ hd)

theorem marked_of_flat {t : List Char} (h : ∀ c ∈ t, isFlat c) : marked t = t.map (·, true) := by
  induction t with
  | nil => rfl
  | cons c t ih =>
    have hc := h c List.mem_cons_self
    have := ih fun d hd => h d (List.mem_cons_of_mem _ hd)
    unfold marked at this ⊢
    rw [markedFrom, step_start_of_flat hc, isTop_start_of_flat hc, Option.getD_some, this]
    rfl

/-! ## Bracketed and quoted texts -/

theorem isTop_of_ne_start {s : Scan} (h : s ≠ .start) (c : Char) : s.isTop c = false := by
  simp [Scan.isTop, h]

theorem lift_ne_start {d : Nat} (hd : 0 < d) (s : Scan) : s.lift d ≠ .start := by
  intro h
  have : s.depth + d = 0 := congrArg Scan.depth h
  omega

theorem markedFrom_lift {s s' : Scan} {t : List Char} {d : Nat} (hd : 0 < d)
    (h : s.run t = some s') : markedFrom (s.lift d) t = t.map (·, false) := by
  induction t generalizing s with
  | nil => rfl
  | cons c t ih =>
    rw [Scan.run_cons] at h
    obtain ⟨s₁, h₁, h₂⟩ := Option.bind_eq_some_iff.1 h
    rw [markedFrom, isTop_of_ne_start (lift_ne_start hd s), Scan.step_lift d h₁, Option.getD_some,
      ih h₂]
    rfl

/-- A balanced text in brackets. -/
def bracketed (t : List Char) : List Char := '(' :: (t ++ [')'])

theorem run_bracketed {t : List Char} (h : Balanced t) : Balanced (bracketed t) := by
  have : (Scan.start.lift 1).run t = some (Scan.start.lift 1) := Scan.run_lift 1 h
  show (Scan.start.lift 1).run (t ++ [')']) = some .start
  rw [Scan.run_append_of this]
  rfl

theorem marked_bracketed {t : List Char} (h : Balanced t) :
    marked (bracketed t) = (bracketed t).map (·, false) := by
  have hm : markedFrom (Scan.start.lift 1) t = t.map (·, false) := markedFrom_lift Nat.one_pos h
  have hr : (Scan.start.lift 1).run t = some (Scan.start.lift 1) := Scan.run_lift 1 h
  show ('(', false) :: markedFrom (Scan.start.lift 1) (t ++ [')']) = _
  rw [markedFrom_append hr, hm]
  simp [bracketed, markedFrom, isTop_of_ne_start (lift_ne_start Nat.one_pos _)]

theorem closing_lift_append {s s' : Scan} {t : List Char} {d : Nat} (hd : 0 < d)
    (h : s.run t = some s') (u : List Char) :
    closing (s.lift d) (t ++ u) = (closing (s'.lift d) u).map (t ++ ·) := by
  induction t generalizing s with
  | nil => cases h; simp
  | cons c t ih =>
    rw [Scan.run_cons] at h
    obtain ⟨s₁, h₁, h₂⟩ := Option.bind_eq_some_iff.1 h
    rw [List.cons_append, closing, Scan.step_lift d h₁]
    simp only [if_neg (lift_ne_start hd s₁), ih h₂, Option.map_map]
    rfl

theorem enclosed_bracketed {t : List Char} (h : Balanced t) : enclosed (bracketed t) = some t := by
  show closing (Scan.start.lift 1) (t ++ [')']) = some t
  rw [closing_lift_append Nat.one_pos h]
  have : closing (Scan.start.lift 1) [')'] = some [] := rfl
  rw [this, Option.map_some, List.append_nil]

theorem enclosed_eq_none {c : Char} (hc : c ≠ '(') (t : List Char) : enclosed (c :: t) = none := by
  unfold enclosed
  split
  · rename_i h
    exact absurd (List.cons.inj h).1 hc
  · rfl

/-- A text between two quotes that are not in it. -/
def inQuotes (q : Char) (t : List Char) : List Char := q :: (t ++ [q])

theorem run_quote {q : Char} {t : List Char} (hq : q ∉ t) :
    (Scan.mk 0 (some q)).run t = some ⟨0, some q⟩ := by
  induction t with
  | nil => rfl
  | cons c t ih =>
    have hc : c ≠ q := fun e => hq (e ▸ List.mem_cons_self)
    have : (Scan.mk 0 (some q)).step c = some ⟨0, some q⟩ := by simp [Scan.step, hc]
    rw [Scan.run_cons, this]
    exact ih fun h => hq (List.mem_cons_of_mem _ h)

theorem markedFrom_quote {q : Char} {t : List Char} (hq : q ∉ t) :
    markedFrom ⟨0, some q⟩ t = t.map (·, false) := by
  induction t with
  | nil => rfl
  | cons c t ih =>
    have hc : c ≠ q := fun e => hq (e ▸ List.mem_cons_self)
    have : (Scan.mk 0 (some q)).step c = some ⟨0, some q⟩ := by simp [Scan.step, hc]
    rw [markedFrom, isTop_of_ne_start (by simp [Scan.start]), this, Option.getD_some,
      ih fun h => hq (List.mem_cons_of_mem _ h)]
    rfl

theorem step_start_quote {q : Char} (hq : Scan.isQuote q) :
    Scan.start.step q = some ⟨0, some q⟩ := by
  simp [Scan.step, Scan.start, hq]

theorem balanced_inQuotes {q : Char} {t : List Char} (hq : Scan.isQuote q) (h : q ∉ t) :
    Balanced (inQuotes q t) := by
  unfold Balanced inQuotes
  rw [Scan.run_cons, step_start_quote hq, Option.bind_some, Scan.run_append_of (run_quote h)]
  simp [Scan.run_cons, Scan.step, Scan.start]

theorem marked_inQuotes {q : Char} {t : List Char} (hq : Scan.isQuote q) (h : q ∉ t) :
    marked (inQuotes q t) = (inQuotes q t).map (·, false) := by
  have hs : Scan.start.isTop q = false := by simp [Scan.isTop, hq]
  have hn : (Scan.mk 0 (some q)) ≠ .start := by simp [Scan.start]
  unfold marked inQuotes
  rw [markedFrom, step_start_quote hq, Option.getD_some, markedFrom_append (run_quote h),
    markedFrom_quote h, hs]
  simp [markedFrom, isTop_of_ne_start hn]

end Stencil
