import Stencil.Proofs.Path.Joining

/-!
# Texts of the same segments

Points and brackets end a segment; where they stand besides, and how many of them, does not count.
Every text consists of segments and separators in one way, and its path is the list of them.
-/

namespace Stencil.Path

/-- The text consists of these segments, each but the last with a separator behind it, and of more
separators anywhere around them. -/
inductive Consists : List Char → List String → Prop
  | nil : Consists [] []
  | separator {c : Char} {t : List Char} {ws : List String} :
      isSeparator c = true → Consists t ws → Consists (c :: t) ws
  | last {w : String} : IsSegment w → Consists w.toList [w]
  | segment {w : String} {c : Char} {t : List Char} {ws : List String} :
      IsSegment w → isSeparator c = true → Consists t ws → Consists (w.toList ++ c :: t) (w :: ws)

theorem isSegment_cons {c : Char} {s : List Char} (hc : isSeparator c = false)
    (hs : ∀ d ∈ s, isSeparator d = false) : IsSegment (String.ofList (c :: s)) := by
  refine ⟨by simp, ?_⟩
  rw [String.toList_ofList]
  exact List.forall_mem_cons.2 ⟨hc, hs⟩

theorem exists_consists (t : List Char) : ∃ ws, Consists t ws := by
  induction t with
  | nil => exact ⟨[], .nil⟩
  | cons c t ih =>
    obtain ⟨ws, h⟩ := ih
    by_cases hc : isSeparator c = true
    · exact ⟨ws, .separator hc h⟩
    · rw [Bool.not_eq_true] at hc
      -- The character begins a segment of its own, or the one that comes first in the rest.
      cases h with
      | nil => exact ⟨_, by simpa using Consists.last (isSegment_cons hc (s := []) (by simp))⟩
      | separator hd h =>
        exact ⟨_, by simpa using Consists.segment (isSegment_cons hc (s := []) (by simp)) hd h⟩
      | last hw => exact ⟨_, by simpa using Consists.last (isSegment_cons hc hw.2)⟩
      | segment hw hd h => exact ⟨_, by simpa using Consists.segment (isSegment_cons hc hw.2) hd h⟩

namespace Consists

variable {t : List Char} {ws : List String}

theorem isSegment (h : Consists t ws) : ∀ w ∈ ws, IsSegment w := by
  induction h with
  | nil => simp
  | separator _ _ ih => exact ih
  | last hw => simpa using hw
  | segment hw _ _ ih => exact List.forall_mem_cons.2 ⟨hw, ih⟩

theorem pieces (h : Consists t ws) : (Text.pieces isSeparator t).map String.ofList = ws := by
  have hne : ∀ {w : String}, IsSegment w → (!w.toList.isEmpty) = true := by
    intro w hw
    simp [String.toList_eq_nil_iff, hw.1]
  unfold Text.pieces
  induction h with
  | nil => rfl
  | separator hc _ ih =>
    rw [List.splitOnP_cons_eq_if_modifyHead, if_pos hc]
    simpa using ih
  | last hw =>
    rw [List.splitOnP_eq_singleton hw.2]
    simp [hne hw]
  | segment hw hc _ ih =>
    rw [List.splitOnP_append_cons_of_forall_mem hw.2 _ hc]
    simp [hne hw, ih]

end Consists

/-- The path of a text is the one list of segments that the text consists of. -/
theorem ofText_eq_iff {t : String} {ws : List String} : ofText t = ⟨ws⟩ ↔ Consists t.toList ws := by
  constructor
  · intro h
    obtain ⟨ws', h'⟩ := exists_consists t.toList
    have e : ws' = ws := h'.pieces.symm.trans (congrArg segments h)
    exact e ▸ h'
  · intro h
    exact congrArg mk h.pieces

theorem consists_ofText (t : String) : Consists t.toList (ofText t).segments := ofText_eq_iff.1 rfl

theorem ofText_eq_ofText_iff {t u : String} :
    ofText t = ofText u ↔ ∃ ws, Consists t.toList ws ∧ Consists u.toList ws := by
  constructor
  · intro h
    exact ⟨(ofText t).segments, consists_ofText t, h ▸ consists_ofText u⟩
  · intro ⟨ws, ht, hu⟩
    rw [ofText_eq_iff.2 ht, ofText_eq_iff.2 hu]

/-- The dotted form of a path that was read is read as the same path. -/
theorem ofText_dotted_ofText (t : String) : ofText (ofText t).dotted = ofText t :=
  ofText_dotted (consists_ofText t).isSegment

end Stencil.Path
