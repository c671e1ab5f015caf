import Mathlib.Data.List.Chain
import Stencil.Proofs.Path.Registering
import Stencil.Proofs.Text.Dotted
import Stencil.Path.Template

/-!
# Mentioned variables

A template is put together from plain text and interpolations. The search for interpolations passes
over plain text up to the dollar sign of the next interpolation and takes that as a whole, so it
finds those that were put in, whatever they hold.
-/

namespace Stencil.Template

/-- A piece of a template: text without the opening of an interpolation, or an interpolation without
a closing brace in it. -/
inductive Piece
  | plain (text : List Char) (h : ¬ ['$', '\x7b'] <:+: text)
  | interpolation (content : List Char) (h : '\x7d' ∉ content)

namespace Piece

def text : Piece → List Char
  | plain s _ => s
  | interpolation e _ => '$' :: '\x7b' :: (e ++ ['\x7d'])

def isPlain : Piece → Bool
  | plain _ _ => true
  | interpolation _ _ => false

/-- What stands in the interpolation. -/
def content? : Piece → Option (List Char)
  | plain _ _ => none
  | interpolation e _ => some e

end Piece

/-- No two pieces of plain text stand side by side. -/
def Apart (ps : List Piece) : Prop := ps.IsChain fun p q => ¬ (p.isPlain = true ∧ q.isPlain = true)

/-! ## One piece -/

variable {s t : List Char}

theorem interpolations_cons {c : Char} (h : ¬ (c = '$' ∧ t.head? = some '\x7b')) :
    interpolations (c :: t) = interpolations t := by
  cases t with
  | nil => simp [interpolations]
  | cons d t =>
    rw [interpolations, if_neg (by simpa using h)]

theorem body?_append {e : List Char} (he : '\x7d' ∉ e) (t : List Char) :
    body? (e ++ '\x7d' :: t) = if e = [] then none else some (e, t) := by
  rw [body?, Text.cutAt_append he]
  cases e <;> rfl

theorem interpolations_interpolation {e : List Char} (he : '\x7d' ∉ e) (t : List Char) :
    interpolations ('$' :: '\x7b' :: (e ++ '\x7d' :: t)) =
      [e].filter (!·.isEmpty) ++ interpolations t := by
  have hb := body?_append he t
  rw [interpolations, if_pos ⟨rfl, rfl⟩]
  by_cases hne : e = []
  · -- Nothing stands between the braces, and neither of them is a dollar sign.
    rw [if_pos hne] at hb
    subst hne
    split
    · rename_i h
      rw [hb] at h
      cases h
    · rw [List.nil_append, interpolations_cons (by simp), interpolations_cons (by simp)]
      rfl
  · rw [if_neg hne] at hb
    split
    · rename_i h
      rw [hb] at h
      cases h
      simp [hne]
    · simp_all

/-- Plain text is passed over, unless its last character opens an interpolation with what follows. -/
theorem interpolations_plain (hs : ¬ ['$', '\x7b'] <:+: s) (ht : t.head? ≠ some '\x7b') :
    interpolations (s ++ t) = interpolations t := by
  induction s with
  | nil => rfl
  | cons c s ih =>
    have hs' : ¬ ['$', '\x7b'] <:+: s := fun h => hs (h.trans (List.suffix_cons c s).isInfix)
    have hc : ¬ (c = '$' ∧ (s ++ t).head? = some '\x7b') := by
      rintro ⟨rfl, h⟩
      cases s with
      | nil => exact ht h
      | cons d s =>
        rw [List.cons_append, List.head?_cons, Option.some.injEq] at h
        rw [h] at hs
        exact hs (List.prefix_append ['$', '\x7b'] s).isInfix
    rw [List.cons_append, interpolations_cons hc, ih hs']

/-! ## All pieces -/

theorem interpolations_text {ps : List Piece} (h : Apart ps) :
    interpolations (ps.flatMap Piece.text) = (ps.filterMap Piece.content?).filter (!·.isEmpty) := by
  induction ps with
  | nil => simp [interpolations]
  | cons p ps ih =>
    obtain ⟨hp, hps⟩ := List.isChain_cons.1 h
    rw [List.flatMap_cons, List.filterMap_cons]
    cases p with
    | plain s hs =>
      have ht : (ps.flatMap Piece.text).head? ≠ some '\x7b' := by
        cases ps with
        | nil => simp
        | cons q ps =>
          cases q with
          | plain s' hs' => exact absurd ⟨rfl, rfl⟩ (hp (.plain s' hs') rfl)
          | interpolation e _ => simp [Piece.text]
      simp only [Piece.text, Piece.content?]
      rw [interpolations_plain hs ht, ih hps]
    | interpolation e he =>
      simp only [Piece.text, Piece.content?]
      rw [List.cons_append, List.cons_append, List.append_assoc, List.singleton_append,
        interpolations_interpolation he, ih hps, ← List.filter_append]
      rfl

/-- A content that is blank is empty when it is trimmed, so the empty ones need not be left out
before. -/
theorem trimmed_contents (l : List (List Char)) :
    (((l.filter (!·.isEmpty)).map Text.trim).filter (!·.isEmpty)).map String.ofList =
      ((l.map String.ofList).filter (!Text.allBlank ·)).map Text.trimmed := by
  induction l with
  | nil => rfl
  | cons s l ih =>
    by_cases hs : Text.trim s = []
    · have hb : Text.allBlank (String.ofList s) = true := by
        rw [Text.allBlank, String.toList_ofList, Text.trim_eq_nil_iff.1 hs]
      have hskip : ((s :: l).map String.ofList).filter (!Text.allBlank ·) =
          (l.map String.ofList).filter (!Text.allBlank ·) := by simp [hb]
      rw [hskip, ← ih]
      cases s with
      | nil => rfl
      | cons c s =>
        rw [List.filter_cons_of_pos rfl, List.map_cons, List.filter_cons_of_neg (by simp [hs])]
    · have hb : Text.allBlank (String.ofList s) = false := by
        rw [Text.allBlank, String.toList_ofList, ← Bool.not_eq_true, ← Text.trim_eq_nil_iff]
        exact hs
      have hne : s ≠ [] := by
        intro e
        exact hs (e ▸ Text.trim_nil)
      simpa [hb, hs, hne, Text.trimmed] using ih

variable {ps : List Piece} {template : String}

theorem mentions_text (h : Apart ps) (ht : template.toList = ps.flatMap Piece.text) :
    mentions template =
      (((ps.filterMap Piece.content?).map String.ofList).filter (!Text.allBlank ·)).map
        Text.trimmed := by
  rw [mentions, ht, interpolations_text h, trimmed_contents]

open KnownPaths in
/-- A template mentions the contents of its interpolations that are not blank, trimmed and in their
order. Those that are not registered, in any spelling, are unknown, and it is valid without them. -/
theorem mentions_pieces (rs : List Registration) (h : Apart ps)
    (ht : template.toList = ps.flatMap Piece.text) :
    let found := (((ps.filterMap Piece.content?).map String.ofList).filter (!Text.allBlank ·)).map
      Text.trimmed
    mentions template = found ∧
      unknown (ofRegistrations rs) template = found.filter (fun e => ¬ IsRegistered rs e) ∧
      (isValid (ofRegistrations rs) template = true ↔ ∀ e ∈ found, IsRegistered rs e) := by
  intro found
  have hm : mentions template = found := mentions_text h ht
  have hu : unknown (ofRegistrations rs) template = found.filter (fun e => ¬ IsRegistered rs e) := by
    rw [unknown, hm]
    refine List.filter_congr fun e _ => ?_
    rw [knows_ofRegistrations, decide_not]
  refine ⟨hm, hu, ?_⟩
  rw [isValid, hu, List.isEmpty_iff, List.filter_eq_nil_iff]
  simp

/-- A dollar sign before an interpolation, an empty one, one with an opening in it, and a registered
path in another spelling. -/
theorem mentions_pieces_user :
    let ps : List Piece := [.plain "a $".toList (by decide),
      .interpolation " user[name]\n".toList (by decide), .interpolation [] (by decide),
      .plain "\x7d\x7b".toList (by decide), .interpolation "$\x7bx".toList (by decide)]
    let template := "a $$\x7b user[name]\n\x7d$\x7b\x7d\x7d\x7b$\x7b$\x7bx\x7d"
    let k := KnownPaths.ofRegistrations [.one "user.name"]
    Apart ps ∧ template.toList = ps.flatMap Piece.text ∧
      mentions template = ["user[name]", "$\x7bx"] ∧ unknown k template = ["$\x7bx"] ∧
      isValid k template = false := by
  intro ps template k
  have ha : Apart ps := by simp [ps, Apart, Piece.isPlain]
  have ht : template.toList = ps.flatMap Piece.text := by decide
  obtain ⟨hm, hu, hv⟩ := mentions_pieces [.one "user.name"] ha ht
  refine ⟨ha, ht, hm.trans (by decide), hu.trans (by decide), ?_⟩
  rw [← Bool.not_eq_true, hv]
  decide

end Stencil.Template
