import Stencil.Proofs.Text.Octets
import Stencil.Proofs.Expr.Balance
import Stencil.Proofs.Expr.Hits

/-!
# Cutting an encoded text

Brackets, quotes, symbols and plain white space are ASCII. An octet from 0x80 on is none of these, as the
character that it comes from is none. So the octets of a text are cut between the same characters as the
text, and the slices of the octets are the octets of the operands.
-/

namespace Stencil

open Text (octets)

/-! ## Characters outside ASCII -/

section
variable {c : Char} (h : 0x80 ≤ c.toNat)
include h

theorem ne_of_wide {d : Char} (hd : d.toNat < 0x80) : c ≠ d := by
  rintro rfl
  omega

theorem beforeSign_of_wide : beforeSign c = false := by
  have hall : "+-*/%<>=!&|(".toList.all (fun d => decide (d.toNat < 0x80)) = true := by decide
  rw [beforeSign, ← Bool.not_eq_true, List.contains_iff_mem]
  intro hc
  exact ne_of_wide h (of_decide_eq_true (List.all_eq_true.1 hall c hc)) rfl

theorem isPlainBlank_of_wide : isPlainBlank c = false := by
  have hne : ∀ d : Char, d.toNat < 0x80 → (c == d) = false := fun d hd => by simpa using ne_of_wide h hd
  simp [isPlainBlank, hne ' ' (by decide), hne '\t' (by decide), hne '\n' (by decide),
    hne '\x0c' (by decide), hne '\r' (by decide)]

theorem isFlat_of_wide : isFlat c = true :=
  isFlat_of_ne (by simp [Scan.isQuote, ne_of_wide h (d := '\'') (by decide),
    ne_of_wide h (d := '"') (by decide)]) (ne_of_wide h (by decide)) (ne_of_wide h (by decide))

theorem signAfter_of_wide (sign : Bool) : signAfter sign c = false := by
  rw [signAfter_of_not_blank (isPlainBlank_of_wide h), beforeSign_of_wide h]

end

theorem isAscii_symbol (op : Operator) : Text.IsAscii op.chars := by
  cases op <;> decide

/-! ## The scan -/

section
variable {t : List Char}

theorem run_octets {s : Scan} (hs : s.Sound) : s.run (octets t) = s.run t := by
  induction t generalizing s with
  | nil => rfl
  | cons c t ih =>
    by_cases hc : c.toNat < 0x80
    · rw [Text.octets_cons_of_ascii hc, Scan.run_cons, Scan.run_cons]
      cases hstep : s.step c with
      | none => rfl
      | some s' => exact ih (hs.step hstep)
    · have hw : 0x80 ≤ c.toNat := Nat.not_lt.1 hc
      have hflat : ∀ d ∈ octets [c], isFlat d := fun d hd => isFlat_of_wide (Text.ge_of_mem_octets hw d hd)
      rw [Text.octets_cons, Scan.run_append_of (Scan.run_of_flat hs hflat), Scan.run_cons,
        Scan.step_of_flat hs (isFlat_of_wide hw)]
      exact ih hs

theorem balanced_octets : Balanced (octets t) ↔ Balanced t := by
  rw [Balanced, run_octets Scan.sound_start, Balanced]

theorem foldl_signAfter_wide {s : List Char} (hs : ∀ d ∈ s, 0x80 ≤ d.toNat) (hne : s ≠ []) (sign : Bool) :
    s.foldl signAfter sign = false := by
  induction s generalizing sign with
  | nil => exact absurd rfl hne
  | cons d s ih =>
    obtain ⟨hd, hr⟩ := List.forall_mem_cons.1 hs
    rw [List.foldl_cons, signAfter_of_wide hd]
    cases s with
    | nil => rfl
    | cons e s => exact ih hr (List.cons_ne_nil e s) false

theorem foldl_signAfter_octets (sign : Bool) :
    (octets t).foldl signAfter sign = t.foldl signAfter sign := by
  induction t generalizing sign with
  | nil => rfl
  | cons c t ih =>
    by_cases hc : c.toNat < 0x80
    · rw [Text.octets_cons_of_ascii hc, List.foldl_cons, List.foldl_cons, ih]
    · have hw : 0x80 ≤ c.toNat := Nat.not_lt.1 hc
      rw [Text.octets_cons, List.foldl_append, List.foldl_cons, ih, signAfter_of_wide hw,
        foldl_signAfter_wide (Text.ge_of_mem_octets hw) (Text.octets_singleton_ne_nil c)]

theorem stands_octets {op : Operator} : Stands op (octets t) ↔ Stands op t := by
  have hs : signPlace (octets t) = signPlace t := by
    rw [← foldl_signAfter, foldl_signAfter_octets, foldl_signAfter]
  have hn : Nested (octets t) ↔ Nested t := by
    rw [← balanced_iff_nested, balanced_octets, balanced_iff_nested]
  have he : octets t ≠ [] ↔ t ≠ [] := not_congr Text.octets_eq_nil_iff
  constructor
  · rintro ⟨h₁, h₂, h₃⟩
    exact ⟨hn.1 h₁, he.1 h₂, hs ▸ h₃⟩
  · rintro ⟨h₁, h₂, h₃⟩
    exact ⟨hn.2 h₁, he.2 h₂, hs ▸ h₃⟩

end

/-! ## The cut -/

namespace Cut

/-- The same operators between other operands. -/
def map (f : List Char → List Char) (k : Cut) : Cut := ⟨f k.head, k.tail.map fun p => (p.1, f p.2)⟩

theorem map_push (c : Char) (k : Cut) :
    (k.push c).map octets = (octets [c]).foldr push (k.map octets) := by
  have h : ∀ (s : List Char) (k : Cut), s.foldr push k = ⟨s ++ k.head, k.tail⟩ := by
    intro s k
    induction s with
    | nil => rfl
    | cons d s ih => rw [List.foldr_cons, ih, push]; rfl
  rw [h, map, push, Text.octets_cons]
  rfl

/-- The index of a hit is where the octets of some part of the text end. -/
theorem exists_of_mem_hits {k : Cut} {i : Nat} {h : Hit} (hm : h ∈ (k.map octets).hits i) :
    ∃ u v, k.join = u ++ (h.op.chars ++ v) ∧ h.start = i + (octets u).length := by
  obtain ⟨x, r⟩ := k
  induction r generalizing i x with
  | nil => cases hm
  | cons p r ih =>
    obtain ⟨op, t⟩ := p
    rw [join_cons]
    rcases List.mem_cons.1 hm with rfl | hm
    · exact ⟨x, _, rfl, rfl⟩
    · obtain ⟨u, v, e, hs⟩ := ih t hm
      refine ⟨x ++ (op.chars ++ u), v, by rw [e]; simp, ?_⟩
      simp [hs, map, Text.octets_of_isAscii (isAscii_symbol op), Nat.add_assoc]

end Cut

theorem CutsInto.chars {ops : Level} {b s t : List Char} {k : Cut} (hs : ∀ d ∈ s, beforeSign d = false)
    (h : CutsInto ops (b ++ s) t k) : CutsInto ops b (s ++ t) (s.foldr Cut.push k) := by
  induction s generalizing b with
  | nil => rwa [List.append_nil] at h
  | cons d s ih =>
    obtain ⟨hd, hr⟩ := List.forall_mem_cons.1 hs
    rw [List.cons_append, List.foldr_cons]
    apply CutsInto.char
    · intro op _ hp _
      obtain ⟨e, r, he⟩ := op.exists_chars
      rw [he, List.cons_prefix_cons] at hp
      rw [← hp.1, beforeSign_of_mem_chars (he ▸ List.mem_cons_self)] at hd
      cases hd
    · apply ih hr
      rwa [List.append_assoc, List.singleton_append]

theorem CutsInto.octets {ops : Level} {b t : List Char} {k : Cut} (h : CutsInto ops b t k) :
    CutsInto ops (octets b) (octets t) (k.map octets) := by
  induction h with
  | done => exact .done
  | @symbol b t op k hop hst _ ih =>
    rw [Text.octets_append, Text.octets_of_isAscii (isAscii_symbol op)] at ih ⊢
    exact .symbol hop (stands_octets.2 hst) ih
  | @char b t c k hno _ ih =>
    rw [Text.octets_append] at ih
    rw [Cut.map_push]
    by_cases hc : c.toNat < 0x80
    · rw [Text.octets_cons_of_ascii hc]
      rw [Text.octets_of_ascii hc] at ih ⊢
      apply CutsInto.char _ ih
      intro op hop hp hst
      rw [← Text.octets_cons_of_ascii hc, Text.prefix_octets_iff (isAscii_symbol op)] at hp
      exact hno op hop hp (stands_octets.1 hst)
    · have hw := Text.ge_of_mem_octets (Nat.not_lt.1 hc)
      rw [Text.octets_cons]
      exact .chars (fun d hd => beforeSign_of_wide (hw d hd)) ih

/-- The octets of a text are cut where the text is. -/
theorem cut_octets {ops : Level} (hl : ops ∈ levels) {t : List Char} (ht : Balanced t) :
    cut ops (marked (octets t)) = (cut ops (marked t)).map octets :=
  ((cutsInto_iff hl (balanced_octets.2 ht)).1 (cutsInto_cut ht).octets).symm

/-! ## Hits in the octets -/

/-- On both sides of an operator that is found in the octets, the encoded text can be cut. -/
theorem isValid_of_mem_hits {text : String} {ops : Level} (hl : ops ∈ levels) (hb : Balanced text.toList)
    {h : Hit} (hm : h ∈ hits ops (marked (octets text.toList))) :
    String.Pos.Raw.IsValid text ⟨h.start⟩ ∧ String.Pos.Raw.IsValid text ⟨h.stop⟩ := by
  rw [hits_eq, cut_octets hl hb] at hm
  obtain ⟨u, v, e, hstart⟩ := Cut.exists_of_mem_hits hm
  rw [join_cut hb] at e
  rw [Nat.zero_add] at hstart
  have hstop : h.stop = (octets (u ++ h.op.chars)).length := by
    rw [Text.octets_append, Text.octets_of_isAscii (isAscii_symbol h.op), List.length_append, Hit.stop,
      hstart]
  rw [hstop, hstart]
  exact ⟨Text.isValid_length_octets e, Text.isValid_length_octets (by rw [e, List.append_assoc])⟩

/-- The operators of a level that a search by index finds in the octets of a text stand one after another
behind the first octet, outside brackets and quotes, and the text can be cut on both sides of each. The
slices between them are the octets of the operands that the text itself is cut into, with the symbols they
give all octets back, and no further operator of the level is found in them. -/
theorem hits_partition (text : String) {ops : Level} (hl : ops ∈ levels) :
    ((∃ bs, marks (octets text.toList) = some bs) ↔ ∃ ms, marks text.toList = some ms) ∧
    ∀ ms bs, marks text.toList = some ms → marks (octets text.toList) = some bs →
      ∀ t hs, t = octets text.toList → hs = hits ops (t.zip bs) →
        hs.Pairwise (fun h h' => h.start < h'.start ∧ h.stop ≤ h'.start) ∧
        (∀ h ∈ hs, 1 ≤ h.start ∧ h.stop ≤ t.length ∧ h.op ∈ ops ∧ t.extract h.start h.stop = h.op.chars) ∧
        (∀ h ∈ hs, bs.extract h.start h.stop = List.replicate h.op.chars.length true ∧
          Nested (t.take h.start) ∧ Nested (t.drop h.stop)) ∧
        (∀ h ∈ hs, String.Pos.Raw.IsValid text ⟨h.start⟩ ∧ String.Pos.Raw.IsValid text ⟨h.stop⟩) ∧
        Hit.slices t hs = (cut ops (text.toList.zip ms)).map octets ∧ (Hit.slices t hs).join = t ∧
        (∀ x ∈ (Hit.slices t hs).pieces, hits ops (marked x) = []) ∧
        ∀ (P : Place) (a v : List Char) (op : Operator), Hit.slices t hs = P.fill (a ++ (op.chars ++ v)) →
          op ∈ ops → P.left ++ a ≠ [] → hitAt (t.zip bs) (P.left ++ a).length op = false := by
  constructor
  · rw [exists_marks_iff, exists_marks_iff, balanced_octets]
  · rintro ms bs hms hbs t hs rfl rfl
    obtain ⟨hb, hz, -⟩ := eq_of_marks hms
    obtain ⟨hb', hz', -⟩ := eq_of_marks hbs
    rw [hz, hz', slices_hits hb']
    refine ⟨ordered_hits ops _, ?_, ?_, ?_, cut_octets hl hb, join_cut hb', ?_, ?_⟩
    · intro h hm
      exact slice_of_mem_hits hb' hm
    · intro h hm
      exact outside_of_mem_hits hbs hm
    · intro h hm
      exact isValid_of_mem_hits hl hb hm
    · intro x hx
      exact hits_of_piece hb' hx
    · intro P a v op hP hop hne
      exact hitAt_of_piece hb' hop hne hP

/-- A character of two octets, the sign of an operand, and operators in a quote and in brackets. -/
theorem hits_partition_accent :
    hits [.add, .sub] (marked (octets "é - -b + 'x-y' - (c+d)".toList)) =
      [⟨3, .sub⟩, ⟨8, .add⟩, ⟨16, .sub⟩] ∧
    Hit.slices (octets "é - -b + 'x-y' - (c+d)".toList)
        (hits [.add, .sub] (marked (octets "é - -b + 'x-y' - (c+d)".toList))) =
      ⟨octets "é ".toList,
        [(.sub, " -b ".toList), (.add, " 'x-y' ".toList), (.sub, " (c+d)".toList)]⟩ ∧
    String.Pos.Raw.IsValid "é - -b + 'x-y' - (c+d)" ⟨3⟩ := by
  have hb : Balanced "é - -b + 'x-y' - (c+d)".toList := by decide +kernel
  have hits_are : hits [.add, .sub] (marked (octets "é - -b + 'x-y' - (c+d)".toList)) =
      [⟨3, .sub⟩, ⟨8, .add⟩, ⟨16, .sub⟩] := by
    rw [hits_eq]
    decide +kernel
  have hl : [.add, .sub] ∈ levels := by decide
  have h := (hits_partition "é - -b + 'x-y' - (c+d)" hl).2 _ _ hb.marks
    (balanced_octets.2 hb).marks _ _ rfl rfl
  rw [zip_map_marked, zip_map_marked] at h
  obtain ⟨-, -, -, hvalid, hslices, -⟩ := h
  refine ⟨hits_are, ?_, ?_⟩
  · rw [hslices]
    decide +kernel
  · exact (hvalid ⟨3, .sub⟩ (by rw [hits_are]; exact List.mem_cons_self)).1

end Stencil
