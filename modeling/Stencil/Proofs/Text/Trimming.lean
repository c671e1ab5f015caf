import Stencil.Text.Blank

/-!
# Trimming texts put together

White space around a text does not change what is left after trimming, and a text whose first and
last characters are not blank is left as it is.
-/

namespace Stencil.Text

/-- The text has characters, and neither the first nor the last one is blank. -/
structure Tight (t : List Char) : Prop where
  head : ∃ c r, t = c :: r ∧ isBlank c = false
  last : ∃ r c, t = r ++ [c] ∧ isBlank c = false

theorem trimStart_blank_append {u : List Char} (h : u.all isBlank) (t : List Char) :
    trimStart (u ++ t) = trimStart t := by
  induction u with
  | nil => rfl
  | cons c u ih =>
    rw [List.all_cons, Bool.and_eq_true] at h
    rw [trimStart, List.cons_append, List.dropWhile_cons_of_pos h.1]
    exact ih h.2

theorem trimStart_of_blank {u : List Char} (h : u.all isBlank) : trimStart u = [] := by
  have := trimStart_blank_append h []
  rwa [List.append_nil] at this

theorem trimStart_append_blank {v : List Char} (h : v.all isBlank) (t : List Char) :
    trimStart (t ++ v) = trimStart t ++ v ∨ (trimStart (t ++ v) = [] ∧ trimStart t = []) := by
  induction t with
  | nil =>
    right
    have := trimStart_blank_append h []
    rw [List.append_nil] at this
    exact ⟨this, rfl⟩
  | cons c t ih =>
    by_cases hc : isBlank c = true
    · simp only [trimStart, List.cons_append, List.dropWhile_cons_of_pos hc] at ih ⊢
      exact ih
    · left
      simp only [trimStart, List.cons_append, List.dropWhile_cons_of_neg hc]

theorem trimEnd_append_blank {v : List Char} (h : v.all isBlank) (t : List Char) :
    trimEnd (t ++ v) = trimEnd t := by
  have hr : v.reverse.all isBlank = true := by rw [List.all_reverse]; exact h
  rw [trimEnd, List.reverse_append]
  exact congrArg List.reverse (trimStart_blank_append hr t.reverse)

theorem trim_blank_append {u : List Char} (h : u.all isBlank) (t : List Char) :
    trim (u ++ t) = trim t := by
  rw [trim, trimStart_blank_append h]; rfl

theorem trim_append_blank {v : List Char} (h : v.all isBlank) (t : List Char) :
    trim (t ++ v) = trim t := by
  rcases trimStart_append_blank h t with e | ⟨e, e'⟩
  · rw [trim, e, trimEnd_append_blank h]; rfl
  · rw [trim, trim, e, e']

theorem Tight.trim {t : List Char} (h : Tight t) : trim t = t := by
  obtain ⟨c, r, rfl, hc⟩ := h.head
  have hs : trimStart (c :: r) = c :: r := List.dropWhile_cons_of_neg (by simp [hc])
  obtain ⟨s, d, hd, hb⟩ := h.last
  have he : trimEnd (s ++ [d]) = s ++ [d] := by
    rw [trimEnd, List.reverse_append, List.reverse_singleton, List.singleton_append,
      List.dropWhile_cons_of_neg (by simp [hb]), List.reverse_cons, List.reverse_reverse]
  rw [Text.trim, hs, hd, he]

theorem Tight.trim_between {t u v : List Char} (h : Tight t) (hu : u.all isBlank) (hv : v.all isBlank) :
    Text.trim (u ++ (t ++ v)) = t := by
  rw [trim_blank_append hu, trim_append_blank hv, h.trim]

theorem trimStart_append_tight {o : List Char} (h : Tight o) (p q : List Char) :
    trimStart (p ++ (o ++ q)) = trimStart p ++ (o ++ q) := by
  obtain ⟨c, r, rfl, hc⟩ := h.head
  induction p with
  | nil => simp [trimStart, hc]
  | cons d p ih =>
    by_cases hd : isBlank d = true
    · simp only [trimStart, List.cons_append, List.dropWhile_cons_of_pos hd] at ih ⊢
      exact ih
    · simp only [trimStart, List.cons_append, List.dropWhile_cons_of_neg hd]

theorem trimEnd_append_tight {o : List Char} (h : Tight o) (p q : List Char) :
    trimEnd (p ++ (o ++ q)) = p ++ (o ++ trimEnd q) := by
  obtain ⟨s, d, rfl, hd⟩ := h.last
  have hr : Tight (s ++ [d]).reverse := by
    obtain ⟨c, r, e, hc⟩ := h.head
    rw [e]
    refine ⟨⟨d, s.reverse, ?_, hd⟩, ⟨r.reverse, c, by simp, hc⟩⟩
    rw [← e, List.reverse_append]
    rfl
  have := trimStart_append_tight hr q.reverse p.reverse
  simp only [trimStart, trimEnd, List.reverse_append, List.append_assoc] at this ⊢
  rw [this]
  simp

theorem trim_append_tight {o : List Char} (h : Tight o) (p q : List Char) :
    trim (p ++ (o ++ q)) = trimStart p ++ (o ++ trimEnd q) := by
  rw [trim, trimStart_append_tight h, trimEnd_append_tight h]

theorem exists_trimStart (t : List Char) : ∃ u, u.all isBlank = true ∧ t = u ++ trimStart t :=
  ⟨t.takeWhile isBlank, List.all_takeWhile, (List.takeWhile_append_dropWhile ..).symm⟩

theorem exists_trim (t : List Char) : ∃ u v, u.all isBlank = true ∧ v.all isBlank = true ∧
    t = u ++ (trim t ++ v) := by
  refine ⟨t.takeWhile isBlank, ((trimStart t).reverse.takeWhile isBlank).reverse,
    List.all_takeWhile, ?_, ?_⟩
  · rw [List.all_reverse]
    exact List.all_takeWhile
  · rw [trim, trimEnd, ← List.reverse_append, List.takeWhile_append_dropWhile, List.reverse_reverse,
      trimStart, List.takeWhile_append_dropWhile]

theorem trim_trim (t : List Char) : trim (trim t) = trim t := by
  obtain ⟨u, v, hu, hv, e⟩ := exists_trim t
  have := congrArg trim e
  rw [trim_blank_append hu, trim_append_blank hv] at this
  exact this.symm

theorem trim_eq_nil_iff {t : List Char} : trim t = [] ↔ t.all isBlank = true := by
  constructor
  · intro h
    obtain ⟨u, v, hu, hv, e⟩ := exists_trim t
    rw [e, h, List.nil_append, List.all_append, hu, hv]
    rfl
  · intro h
    have := trim_blank_append h []
    rwa [List.append_nil] at this

theorem infix_blank_append {s u : List Char} (hs : ∀ c ∈ s, isBlank c = false) (hne : s ≠ [])
    (hu : u.all isBlank) (t : List Char) : s <:+: u ++ t ↔ s <:+: t := by
  induction u with
  | nil => rfl
  | cons c u ih =>
    rw [List.all_cons, Bool.and_eq_true] at hu
    rw [List.cons_append, List.infix_cons_iff, ih hu.2]
    constructor
    · rintro (⟨r, e⟩ | h)
      · obtain ⟨d, s, rfl⟩ := List.exists_cons_of_ne_nil hne
        have hd := hs d List.mem_cons_self
        rw [List.cons_append, List.cons.injEq] at e
        rw [e.1, hu.1] at hd
        cases hd
      · exact h
    · intro h
      exact .inr h

theorem infix_append_blank {s v : List Char} (hs : ∀ c ∈ s, isBlank c = false) (hne : s ≠ [])
    (hv : v.all isBlank) (t : List Char) : s <:+: t ++ v ↔ s <:+: t := by
  have hr : v.reverse.all isBlank = true := by rw [List.all_reverse]; exact hv
  rw [← List.reverse_infix, List.reverse_append, infix_blank_append _ _ hr, List.reverse_infix]
  · intro c hc
    exact hs c (List.mem_reverse.1 hc)
  · simpa using hne

theorem length_trim_le (t : List Char) : (trim t).length ≤ t.length := by
  have hs : (trimStart t).length ≤ t.length := (List.dropWhile_sublist _).length_le
  have he : (trimEnd (trimStart t)).length ≤ (trimStart t).reverse.length := by
    rw [trimEnd, List.length_reverse]
    exact (List.dropWhile_sublist _).length_le
  rw [List.length_reverse] at he
  exact Nat.le_trans he hs

theorem tight_of_trim_eq {t : List Char} (h : Text.trim t = t) (hne : t ≠ []) : Tight t where
  head := by
    obtain ⟨c, r, rfl⟩ := List.exists_cons_of_ne_nil hne
    refine ⟨c, r, rfl, ?_⟩
    cases hc : isBlank c with
    | false => rfl
    | true =>
      have hu : [c].all isBlank = true := by rw [List.all_cons, hc]; rfl
      have hl := length_trim_le r
      rw [← trim_blank_append hu r, List.singleton_append, h, List.length_cons] at hl
      omega
  last := by
    refine ⟨t.dropLast, t.getLast hne, (List.dropLast_concat_getLast hne).symm, ?_⟩
    cases hc : isBlank (t.getLast hne) with
    | false => rfl
    | true =>
      have hv : [t.getLast hne].all isBlank = true := by rw [List.all_cons, hc]; rfl
      have hl := length_trim_le t.dropLast
      rw [← trim_append_blank hv, List.dropLast_concat_getLast, h, List.length_dropLast] at hl
      have := List.length_pos_iff.2 hne
      omega

theorem trimStart_of_trim_eq {a b : List Char} (h : Text.trim (a ++ b) = a ++ b) : trimStart a = a := by
  cases a with
  | nil => rfl
  | cons c a =>
    obtain ⟨d, r, e, hd⟩ := (tight_of_trim_eq h (by simp)).head
    cases e
    exact List.dropWhile_cons_of_neg (by simp [hd])

theorem Tight.prepend {s t : List Char} (h : Tight t) (hs : ∀ c ∈ s, isBlank c = false) :
    Tight (s ++ t) where
  head := by
    cases s with
    | nil => exact h.head
    | cons c s => exact ⟨c, s ++ t, rfl, hs c List.mem_cons_self⟩
  last := by
    obtain ⟨r, c, rfl, hc⟩ := h.last
    exact ⟨s ++ r, c, (List.append_assoc ..).symm, hc⟩

theorem trim_of_no_blank {s : List Char} (h : ∀ c ∈ s, isBlank c = false) : Text.trim s = s := by
  rcases List.eq_nil_or_concat s with rfl | ⟨r, c, rfl⟩
  · rfl
  · have hc : Tight [c] := by
      have hb : isBlank c = false := h c (by simp)
      exact ⟨⟨c, [], rfl, hb⟩, ⟨[], c, rfl, hb⟩⟩
    rw [List.concat_eq_append]
    exact (hc.prepend fun d hd => h d (by simp [hd])).trim

theorem Tight.ne_nil {t : List Char} (h : Tight t) : t ≠ [] := by
  obtain ⟨c, r, rfl, -⟩ := h.head
  simp

theorem trimStart_trimStart (t : List Char) : trimStart (trimStart t) = trimStart t := by
  cases e : trimStart t with
  | nil => rfl
  | cons c r => exact List.dropWhile_cons_of_neg (by simp [head_trimStart e])

theorem trim_trimStart (t : List Char) : trim (trimStart t) = trim t := by
  rw [trim, trimStart_trimStart]
  rfl

theorem trimStart_append_of_ne {t : List Char} (h : trimStart t ≠ []) (s : List Char) :
    trimStart (t ++ s) = trimStart t ++ s := by
  unfold trimStart at h ⊢
  rw [List.dropWhile_append, if_neg]
  simpa using h

theorem exists_trimStart_trim (t : List Char) :
    ∃ v, v.all isBlank = true ∧ trimStart t = trim t ++ v := by
  obtain ⟨u, v, hu, hv, e⟩ := exists_trim t
  by_cases hne : trim t = []
  · refine ⟨[], rfl, ?_⟩
    rw [hne]
    exact trimStart_of_blank (trim_eq_nil_iff.1 hne)
  · refine ⟨v, hv, ?_⟩
    have ht : Tight (trim t) := tight_of_trim_eq (trim_trim t) hne
    have hs : trimStart (u ++ (trim t ++ v)) = trim t ++ v := by
      rw [trimStart_blank_append hu]
      exact trimStart_append_tight ht [] v
    rwa [← e] at hs

theorem trim_tail_trimStart {x : List Char} (h : trim x ≠ []) :
    trim (trimStart x).tail = trim (trim x).tail := by
  obtain ⟨v, hv, e⟩ := exists_trimStart_trim x
  rw [e, List.tail_append_of_ne_nil h, trim_append_blank hv]

theorem trim_takeWhile (x : List Char) : trim (x.takeWhile isBlank) = [] :=
  trim_eq_nil_iff.2 List.all_takeWhile

end Stencil.Text
