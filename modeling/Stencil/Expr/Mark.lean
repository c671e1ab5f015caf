/-!
# What stands outside brackets and quotes

A scan goes through a text once and knows how many brackets are open and which quote, if any.
Inside a quote only the same quote means anything. `marks` tells for each character whether it
stands at the top: outside brackets and quotes, and none of these itself. A text has marks exactly
when its brackets and quotes balance.
-/

namespace Stencil

/-- Where a scan stands. -/
structure Scan where
  depth : Nat
  quote : Option Char
deriving DecidableEq

namespace Scan

def start : Scan := ⟨0, none⟩

def isQuote (c : Char) : Bool := c == '\'' || c == '"'

/-- One character further; a bracket that closes nothing ends the scan. -/
def step (s : Scan) (c : Char) : Option Scan :=
  match s.quote with
  | some q => some (if c = q then ⟨s.depth, none⟩ else s)
  | none =>
    if isQuote c then some ⟨s.depth, some c⟩
    else if c = '(' then some ⟨s.depth + 1, none⟩
    else if c = ')' then if s.depth = 0 then none else some ⟨s.depth - 1, none⟩
    else some s

/-- The character read in this state stands at the top. -/
def isTop (s : Scan) (c : Char) : Bool :=
  s == start && !isQuote c && c != '(' && c != ')'

end Scan

/-- The marks of a text that is read from the state `s` on. -/
def marksFrom : Scan → List Char → Option (List Bool)
  | s, [] => if s = .start then some [] else none
  | s, c :: r =>
    match s.step c with
    | none => none
    | some s' => (marksFrom s' r).map (s.isTop c :: ·)

def marks (text : List Char) : Option (List Bool) := marksFrom .start text

/-- The text up to the bracket that closes the last open one, if that bracket ends the text. -/
def closing : Scan → List Char → Option (List Char)
  | _, [] => none
  | s, c :: r =>
    match s.step c with
    | none => none
    | some s' =>
      if s' = .start then if r.isEmpty then some [] else none
      else (closing s' r).map (c :: ·)

/-- The text inside a bracket that opens at the first character and closes at the last. -/
def enclosed : List Char → Option (List Char)
  | '(' :: r => closing ⟨1, none⟩ r
  | _ => none

/-- Only a closing bracket leads out of all brackets. -/
theorem Scan.eq_start_of_step {s s' : Scan} {c : Char} (hs : s.depth ≠ 0)
    (h : s.step c = some s') (h' : s'.depth = 0) : c = ')' ∧ s' = start := by
  unfold step at h
  cases hq : s.quote with
  | some q =>
    rw [hq] at h
    by_cases hc : c = q
    · simp only [hc, if_true, Option.some.injEq] at h
      subst h; exact absurd h' hs
    · simp only [hc, if_false, Option.some.injEq] at h
      subst h; exact absurd h' hs
  | none =>
    simp only [hq, hs, if_false] at h
    split at h
    · cases h; exact absurd h' hs
    · split at h
      · cases h; cases h'
      · split at h
        · rename_i hc
          cases h
          simp only at h'
          exact ⟨hc, by rw [h']; rfl⟩
        · cases h; exact absurd h' hs

theorem eq_of_closing {s : Scan} {t u : List Char} (hs : s.depth ≠ 0) (h : closing s t = some u) :
    t = u ++ [')'] := by
  induction t generalizing s u with
  | nil => simp [closing] at h
  | cons c r ih =>
    unfold closing at h
    split at h
    · cases h
    · rename_i s' hs'
      by_cases hd : s'.depth = 0
      · obtain ⟨rfl, rfl⟩ := Scan.eq_start_of_step hs hs' hd
        rw [if_pos rfl] at h
        split at h <;> simp_all
      · have hne : s' ≠ .start := fun e => hd (by rw [e]; rfl)
        rw [if_neg hne] at h
        obtain ⟨u', hu, rfl⟩ := Option.map_eq_some_iff.1 h
        rw [ih hd hu, List.cons_append]

/-- The bracketed text is the inner text between its brackets. -/
theorem eq_of_enclosed {t u : List Char} (h : enclosed t = some u) : t = '(' :: (u ++ [')']) := by
  unfold enclosed at h
  split at h
  · rw [eq_of_closing (by simp) h]
  · cases h

end Stencil
