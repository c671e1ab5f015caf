import Stencil.Proofs.Text.Ascii

/-!
# Octets of a text

In UTF-8 a character up to 0x7F is one octet, which is the character itself, and any other character is
some octets from 0x80 on. So a text of ASCII characters starts in the octets where it starts in the text,
and a place between two characters is one that the encoding can be cut at.
-/

namespace Stencil.Text

/-- The octets of the text in UTF-8, each taken for a character. -/
def octets (t : List Char) : List Char := (t.flatMap String.utf8EncodeChar).map Char.ofUInt8

@[simp] theorem octets_nil : octets [] = [] := rfl

@[simp] theorem octets_append (s t : List Char) : octets (s ++ t) = octets s ++ octets t := by
  simp [octets]

/-! ## Characters -/

section
variable {c : Char}

theorem octets_of_ascii (h : c.toNat < 0x80) : octets [c] = [c] := by
  have hc : c.val.toNat ≤ 127 := Nat.le_of_lt_succ h
  have he : String.utf8EncodeChar c = [UInt8.ofNat c.val.toNat] := by
    simp only [String.utf8EncodeChar, hc, if_true]
  have hn : (UInt8.ofNat c.val.toNat).toNat = c.val.toNat := by
    simp only [UInt8.toNat_ofNat']
    omega
  have hb : Char.ofUInt8 (UInt8.ofNat c.val.toNat) = c := Char.ext (UInt32.toNat.inj hn)
  rw [octets, List.flatMap_singleton, he, List.map_singleton, hb]

theorem ge_of_mem_utf8EncodeChar (h : 0x80 ≤ c.toNat) : ∀ b ∈ String.utf8EncodeChar c, 0x80 ≤ b.toNat := by
  have hc : ¬ c.val.toNat ≤ 127 := Nat.not_le.2 h
  -- Two, three or four octets.
  simp only [String.utf8EncodeChar, hc, if_false]
  split
  · simp
    omega
  · split <;> simp <;> omega

theorem ge_of_mem_octets (h : 0x80 ≤ c.toNat) : ∀ d ∈ octets [c], 0x80 ≤ d.toNat := by
  intro d hd
  rw [octets, List.flatMap_singleton] at hd
  obtain ⟨b, hb, rfl⟩ := List.mem_map.1 hd
  exact ge_of_mem_utf8EncodeChar h b hb

theorem octets_singleton_ne_nil (c : Char) : octets [c] ≠ [] := by
  simp [octets, String.utf8EncodeChar_ne_nil]

theorem octets_cons_of_ascii (h : c.toNat < 0x80) (t : List Char) : octets (c :: t) = c :: octets t := by
  rw [← List.singleton_append, octets_append, octets_of_ascii h]
  rfl

end

theorem octets_cons (c : Char) (t : List Char) : octets (c :: t) = octets [c] ++ octets t :=
  octets_append [c] t

/-! ## Texts -/

theorem octets_eq_nil_iff {t : List Char} : octets t = [] ↔ t = [] := by
  cases t with
  | nil => simp
  | cons c t =>
    rw [octets_cons]
    simp [octets_singleton_ne_nil]

theorem octets_of_isAscii {s : List Char} (h : IsAscii s) : octets s = s := by
  induction s with
  | nil => rfl
  | cons c s ih =>
    obtain ⟨hc, hs⟩ := h.of_cons
    rw [octets_cons_of_ascii hc, ih hs]

theorem prefix_octets_iff {s t : List Char} (h : IsAscii s) : s <+: octets t ↔ s <+: t := by
  induction s generalizing t with
  | nil => simp
  | cons c s ih =>
    obtain ⟨hc, hs⟩ := h.of_cons
    cases t with
    | nil => simp
    | cons d t =>
      by_cases hd : d.toNat < 0x80
      · rw [octets_cons_of_ascii hd, List.cons_prefix_cons, List.cons_prefix_cons, ih hs]
      · have hge := ge_of_mem_octets (Nat.not_lt.1 hd)
        obtain ⟨e, r, he⟩ := List.exists_cons_of_ne_nil (octets_singleton_ne_nil d)
        have hne : c ≠ e := by
          rintro rfl
          have := hge c (he ▸ List.mem_cons_self)
          omega
        have hne' : c ≠ d := by
          rintro rfl
          exact hd hc
        rw [octets_cons, he, List.cons_append, List.cons_prefix_cons, List.cons_prefix_cons]
        simp [hne, hne']

/-- Behind the octets of a part at the start, the encoded text can be cut. -/
theorem isValid_length_octets {text : String} {u v : List Char} (h : text.toList = u ++ v) :
    String.Pos.Raw.IsValid text ⟨(octets u).length⟩ := by
  rw [String.Pos.Raw.isValid_iff_exists_append]
  refine ⟨String.ofList u, String.ofList v, ?_, ?_⟩
  · rw [← String.ofList_append, ← h, String.ofList_toList]
  · rw [String.Pos.Raw.ext_iff, String.byteIdx_rawEndPos, ← String.size_toByteArray,
      String.toByteArray_ofList, List.utf8Encode, List.size_toByteArray, octets, List.length_map]

end Stencil.Text
