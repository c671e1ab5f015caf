import Stencil.Path.Basic

/-!
# Joined segments

A segment is not empty and has neither points nor brackets. Segments with points between them are
read as a path again, and cutting the text at its points alone gives the same segments.
-/

namespace Stencil

def IsSegment (w : String) : Prop := w ≠ "" ∧ ∀ c ∈ w.toList, Path.isSeparator c = false

instance (w : String) : Decidable (IsSegment w) :=
  @instDecidableAnd _ _ inferInstance (List.decidableBAll _ w.toList)

theorem Text.splitOnP_intercalate {p : Char → Bool} {c : Char} (hc : p c = true)
    {pieces : List (List Char)} (hne : pieces ≠ []) (h : ∀ l ∈ pieces, ∀ d ∈ l, p d = false) :
    ([c].intercalate pieces).splitOnP p = pieces := by
  induction pieces with
  | nil => exact absurd rfl hne
  | cons l r ih =>
    have hl := h l List.mem_cons_self
    cases r with
    | nil => rw [List.intercalate_singleton, List.splitOnP_eq_singleton hl]
    | cons l' r =>
      rw [List.intercalate_cons_cons, List.append_assoc, List.singleton_append,
        List.splitOnP_append_cons_of_forall_mem hl c hc,
        ih (List.cons_ne_nil l' r) fun m hm => h m (List.mem_cons_of_mem l hm)]

namespace Path

variable {segments : List String}

/-- The segments are found again by any cut at points that spares the characters of segments. -/
theorem splitOnP_dotted {p : Char → Bool} (hp : p '.' = true)
    (hs : ∀ c, isSeparator c = false → p c = false) (hne : segments ≠ [])
    (h : ∀ w ∈ segments, IsSegment w) :
    (mk segments).dotted.toList.splitOnP p = segments.map String.toList := by
  rw [dotted, String.toList_ofList]
  refine Text.splitOnP_intercalate hp (fun e => hne (List.map_eq_nil_iff.1 e)) fun l hl c hc => ?_
  obtain ⟨w, hw, rfl⟩ := List.mem_map.1 hl
  exact hs c ((h w hw).2 c hc)

theorem map_ofList_toList (words : List String) : (words.map String.toList).map String.ofList = words := by
  rw [List.map_map]
  exact (List.map_congr_left fun w _ => String.ofList_toList).trans (List.map_id words)

theorem splitOn_dotted (hne : segments ≠ []) (h : ∀ w ∈ segments, IsSegment w) :
    ((mk segments).dotted.toList.splitOnP (· == '.')).map String.ofList = segments := by
  rw [splitOnP_dotted rfl (fun c hc => ?_) hne h, map_ofList_toList]
  simp only [isSeparator, Bool.or_eq_false_iff] at hc
  exact hc.1.1

theorem ofText_dotted (h : ∀ w ∈ segments, IsSegment w) :
    ofText (mk segments).dotted = mk segments := by
  rcases Decidable.em (segments = []) with rfl | hne
  · rfl
  have hf : ∀ l ∈ segments.map String.toList, (!l.isEmpty) = true := by
    intro l hl
    obtain ⟨w, hw, rfl⟩ := List.mem_map.1 hl
    rw [Bool.not_eq_true', List.isEmpty_eq_false_iff]
    exact fun e => (h w hw).1 (String.toList_eq_nil_iff.1 e)
  rw [ofText, Text.pieces, splitOnP_dotted rfl (fun _ hc => hc) hne h, List.filter_eq_self.2 hf,
    map_ofList_toList]

end Path

end Stencil
