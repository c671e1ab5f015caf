import Stencil.Proofs.Expr.Marking
import Stencil.Proofs.Text.Trimming

/-!
# Texts whose brackets and quotes balance

`Nested` is the grammar of these texts: single characters, quoted texts and bracketed texts one
after the other. The scan comes back to where it started exactly on the texts of the grammar, so
`Nested` may be read wherever `Balanced` stands.
-/

namespace Stencil

inductive Nested : List Char → Prop
  | nil : Nested []
  | flat {c : Char} {t : List Char} : isFlat c → Nested t → Nested (c :: t)
  | quote {q : Char} {s t : List Char} : Scan.isQuote q → q ∉ s → Nested t →
      Nested (inQuotes q s ++ t)
  | bracket {s t : List Char} : Nested s → Nested t → Nested (bracketed s ++ t)

theorem Nested.balanced {t : List Char} (h : Nested t) : Balanced t := by
  induction h with
  | nil => rfl
  | @flat c t hc _ ih =>
    have h₁ : Balanced [c] := balanced_of_flat (by simpa using hc)
    exact h₁.append ih
  | quote hq hs _ ih => exact (balanced_inQuotes hq hs).append ih
  | bracket _ _ ihs iht => exact (run_bracketed ihs).append iht

/-- A text that closes so many open brackets, and is balanced apart from that. -/
inductive Closes : Nat → List Char → Prop
  | done {t : List Char} : Nested t → Closes 0 t
  | close {d : Nat} {s t : List Char} : Nested s → Closes d t → Closes (d + 1) (s ++ ')' :: t)

namespace Closes

variable {d : Nat} {t : List Char}

theorem flat {c : Char} (hc : isFlat c) (h : Closes d t) : Closes d (c :: t) := by
  cases h with
  | done h => exact .done (.flat hc h)
  | close hs h => exact .close (.flat hc hs) h

theorem quote {q : Char} {s : List Char} (hq : Scan.isQuote q) (hs : q ∉ s) (h : Closes d t) :
    Closes d (inQuotes q s ++ t) := by
  cases h with
  | done h => exact .done (.quote hq hs h)
  | close hn h =>
    rw [← List.append_assoc]
    exact .close (.quote hq hs hn) h

theorem bracket (h : Closes (d + 1) t) : Closes d ('(' :: t) := by
  cases h with
  | @close _ s u hs h =>
    have e : '(' :: (s ++ ')' :: u) = bracketed s ++ u := by simp [bracketed]
    rw [e]
    cases h with
    | done h => exact .done (.bracket hs h)
    | close hn h =>
      rw [← List.append_assoc]
      exact .close (.bracket hs hn) h

end Closes

namespace Scan

/-- Only a quote is ever open as a quote. -/
def Sound (s : Scan) : Prop := ∀ q, s.quote = some q → isQuote q

theorem sound_start : start.Sound := by
  intro q h
  cases h

theorem quote_of_step {s s' : Scan} {c q : Char} (h : s.step c = some s') (hq : s'.quote = some q) :
    s.quote = some q ∨ isQuote q := by
  obtain ⟨d, quote⟩ := s
  cases quote with
  | some r =>
    simp only [step, Option.some.injEq] at h
    subst h
    split at hq
    · cases hq
    · exact .inl hq
  | none =>
    right
    unfold step at h
    by_cases hc : isQuote c = true
    · simp only [hc, if_true, Option.some.injEq] at h
      subst h
      cases hq
      exact hc
    · simp only [hc, Bool.false_eq_true, if_false] at h
      split at h
      · cases h
        cases hq
      · split at h
        · split at h <;> cases h
          cases hq
        · cases h
          cases hq

theorem Sound.step {s s' : Scan} {c : Char} (hs : s.Sound) (h : s.step c = some s') : s'.Sound := by
  intro q hq
  rcases quote_of_step h hq with h | h
  · exact hs q h
  · exact h

theorem Sound.run {s s' : Scan} {t : List Char} (hs : s.Sound) (h : s.run t = some s') : s'.Sound := by
  induction t generalizing s with
  | nil =>
    cases h
    exact hs
  | cons c t ih =>
    rw [run_cons] at h
    obtain ⟨s₁, h₁, h₂⟩ := Option.bind_eq_some_iff.1 h
    exact ih (hs.step h₁) h₂

theorem step_of_flat {s : Scan} {c : Char} (hs : s.Sound) (h : isFlat c) : s.step c = some s := by
  simp only [isFlat, Bool.and_eq_true, Bool.not_eq_true', bne_iff_ne] at h
  unfold step
  split
  · rename_i q hq
    have hc : c ≠ q := by
      intro e
      have := hs q hq
      rw [← e, h.1.1] at this
      cases this
    rw [if_neg hc]
  · simp [h.1.1, h.1.2, h.2]

theorem run_of_flat {s : Scan} {t : List Char} (hs : s.Sound) (h : ∀ c ∈ t, isFlat c) :
    s.run t = some s := by
  induction t with
  | nil => rfl
  | cons c t ih =>
    rw [run_cons, step_of_flat hs (h c List.mem_cons_self)]
    exact ih fun d hd => h d (List.mem_cons_of_mem _ hd)

/-- What a scan in this state has left to do when it ends at the start. -/
def Owes (s : Scan) (t : List Char) : Prop :=
  match s.quote with
  | none => Closes s.depth t
  | some q => ∃ a b, t = a ++ q :: b ∧ q ∉ a ∧ Closes s.depth b

end Scan

theorem isFlat_of_ne {c : Char} (hq : Scan.isQuote c = false) (ho : c ≠ '(') (hc : c ≠ ')') :
    isFlat c = true := by
  simp [isFlat, hq, ho, hc]

theorem owes_of_run {s : Scan} {t : List Char} (hs : s.Sound) (h : s.run t = some .start) :
    s.Owes t := by
  induction t generalizing s with
  | nil =>
    cases h
    exact .done .nil
  | cons c t ih =>
    rw [Scan.run_cons] at h
    obtain ⟨s₁, h₁, h₂⟩ := Option.bind_eq_some_iff.1 h
    have hs₁ := hs.step h₁
    obtain ⟨d, quote⟩ := s
    cases quote with
    | some q =>
      simp only [Scan.step, Option.some.injEq] at h₁
      by_cases hc : c = q
      · subst hc
        simp only [if_true] at h₁
        subst h₁
        have hd : Closes d t := ih hs₁ h₂
        exact ⟨[], t, rfl, by simp, hd⟩
      · simp only [if_neg hc] at h₁
        subst h₁
        obtain ⟨a, b, rfl, ha, hb⟩ := ih hs₁ h₂
        refine ⟨c :: a, b, rfl, ?_, hb⟩
        simp [ha, Ne.symm hc]
    | none =>
      show Closes d (c :: t)
      by_cases hq : Scan.isQuote c = true
      · simp only [Scan.step, hq, if_true, Option.some.injEq] at h₁
        subst h₁
        obtain ⟨a, b, rfl, ha, hb⟩ := ih hs₁ h₂
        have := hb.quote hq ha
        simpa [inQuotes] using this
      simp only [Scan.step, hq, Bool.false_eq_true, if_false] at h₁
      by_cases ho : c = '('
      · subst ho
        simp only [if_true, Option.some.injEq] at h₁
        subst h₁
        have hd : Closes (d + 1) t := ih hs₁ h₂
        exact hd.bracket
      simp only [if_neg ho] at h₁
      by_cases hc : c = ')'
      · subst hc
        cases d with
        | zero => simp at h₁
        | succ d =>
          simp only [if_true, Nat.add_one_ne_zero, if_false, Option.some.injEq] at h₁
          subst h₁
          have hd : Closes d t := ih hs₁ h₂
          exact .close .nil hd
      · simp only [if_neg hc, Option.some.injEq] at h₁
        subst h₁
        have hd : Closes d t := ih hs₁ h₂
        exact hd.flat (isFlat_of_ne (by simpa using hq) ho hc)

theorem balanced_iff_nested {t : List Char} : Balanced t ↔ Nested t := by
  constructor
  · intro h
    cases owes_of_run Scan.sound_start h with
    | done h => exact h
  · exact Nested.balanced

/-! ## Parts of balanced texts -/

theorem Balanced.append_iff {p t : List Char} (hp : Balanced p) : Balanced (p ++ t) ↔ Balanced t := by
  unfold Balanced
  rw [Scan.run_append_of hp]

theorem balanced_append_flat {t v : List Char} (hv : ∀ c ∈ v, isFlat c) :
    Balanced (t ++ v) ↔ Balanced t := by
  constructor
  · intro h
    unfold Balanced at h ⊢
    rw [Scan.run_append] at h
    obtain ⟨s, h₁, h₂⟩ := Option.bind_eq_some_iff.1 h
    rw [Scan.run_of_flat (Scan.sound_start.run h₁) hv] at h₂
    rw [h₁, h₂]
  · intro h
    exact h.append (balanced_of_flat hv)

theorem isFlat_of_blank {c : Char} (h : Text.isBlank c) : isFlat c = true := by
  cases hf : isFlat c with
  | true => rfl
  | false =>
    simp only [isFlat, Scan.isQuote, Bool.and_eq_false_iff, Bool.not_eq_false', Bool.or_eq_true,
      beq_iff_eq, bne_eq_false_iff_eq] at hf
    obtain ((rfl | rfl) | rfl) | rfl := hf <;> exact absurd h (by decide)

theorem isFlat_of_all_blank {u : List Char} (h : u.all Text.isBlank = true) : ∀ c ∈ u, isFlat c :=
  fun c hc => isFlat_of_blank (List.all_eq_true.1 h c hc)

theorem balanced_of_blank {u : List Char} (h : u.all Text.isBlank = true) : Balanced u :=
  balanced_of_flat (isFlat_of_all_blank h)

theorem balanced_trim {t : List Char} : Balanced (Text.trim t) ↔ Balanced t := by
  obtain ⟨u, v, hu, hv, e⟩ := Text.exists_trim t
  have he : Balanced t ↔ Balanced (u ++ (Text.trim t ++ v)) := by rw [← e]
  rw [he, (balanced_of_blank hu).append_iff, balanced_append_flat (isFlat_of_all_blank hv)]

end Stencil
