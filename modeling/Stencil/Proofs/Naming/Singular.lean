import Stencil.Proofs.Table.Keys
import Stencil.Proofs.Text.Ascii
import Stencil.Naming.Singular

/-!
# The case of singular forms

Words that differ in case only lose the same ending, or are the same irregular word, and what comes
in its place is written in the case of what is replaced. So the singular of a word in capitals is in
capitals, and a capital at the start of a word stays one.
-/

namespace Stencil.Naming

open Text

def uppercased (word : String) : String := String.ofList (toUpper word.toList)

def capitalized (word : String) : String := String.ofList (capitalize word.toList)

/-! ## The same change in any case -/

/-- The word with the singular of `e` in place of what stands from the `n`th character on, in the
case of that. -/
def changeAt (n : Nat) (e : String × String) (word : List Char) : List Char :=
  word.take n ++ preserveCase (word.drop n) e.2.toList

/-- A word with these folds ends like the plural of `e`. -/
def fits (folds : List Char) (e : String × String) : Bool :=
  folds.drop (folds.length - e.1.toList.length) == e.1.toList.map fold

theorem find?_letters (word s : List Char) :
    (Ending.letters s).find? word =
      if (word.map fold).drop (word.length - s.length) = s.map fold then
        some (word.take (word.length - s.length), word.drop (word.length - s.length))
      else none := by
  simp only [Ending.find?, List.splitAt_eq, List.map_drop]

namespace Singularizer

def rulesOf (entries : List (String × String)) : List PluralRule :=
  entries.map fun e => ⟨.letters e.1.toList, e.2⟩

/-- The folds of a word tell which rule fits. -/
theorem applyRules_rulesOf (entries : List (String × String)) (word : List Char) :
    applyRules (rulesOf entries) word =
      match entries.find? (fits (word.map fold)) with
      | some e => changeAt (word.length - e.1.toList.length) e word
      | none => word := by
  induction entries with
  | nil => rfl
  | cons e entries ih =>
    have hl : (word.map fold).length = word.length := List.length_map fold
    unfold rulesOf at ih ⊢
    rw [List.map_cons, applyRules]
    dsimp only
    rw [find?_letters, List.find?_cons]
    by_cases h : (word.map fold).drop (word.length - e.1.toList.length) = e.1.toList.map fold
    · have hf : fits (word.map fold) e = true := by simp [fits, hl, h]
      rw [if_pos h, hf]
      rfl
    · have hf : fits (word.map fold) e = false := by simp [fits, hl, h]
      rw [if_neg h, hf]
      exact ih

end Singularizer

/-! ## The case of a replacement -/

section
variable {found : List Char} (r : List Char) (hf : IsAscii found)
include hf

theorem preserveCase_of_ascii : preserveCase found r =
    if found.any Char.isAlpha && !found.any Char.isLower then toUpper r
    else if found.head?.any Char.isUpper then capitalize r else r := by
  have ha : found.any isAlphabetic = found.any Char.isAlpha :=
    any_congr_left fun c hc => isAlphabetic_of_ascii (hf c hc)
  have hl : found.any isLowercase = found.any Char.isLower :=
    any_congr_left fun c hc => isLowercase_of_ascii (hf c hc)
  unfold preserveCase
  rw [ha, hl]
  split
  · rfl
  · cases found with
    | nil => simp
    | cons f t =>
      have hu := isUppercase_of_ascii hf.of_cons.1
      by_cases h : f.isUpper <;> cases r <;> simp [hu, h, capitalize]

theorem toUpper_preserveCase {r : List Char} (hr : IsAscii r) :
    toUpper (preserveCase found r) = toUpper r := by
  rw [preserveCase_of_ascii r hf]
  split
  · exact hr.toUpper_toUpper
  · split
    · exact hr.toUpper_capitalize
    · rfl

theorem preserveCase_toUpper (hl : found.any Char.isAlpha = true) :
    preserveCase (found.map Char.toUpper) r = toUpper r := by
  have ha : (found.map Char.toUpper).any Char.isAlpha = true := by simpa [List.any_map] using hl
  have hn : (found.map Char.toUpper).any Char.isLower = false := by simp
  rw [preserveCase_of_ascii r hf.map_toUpper, ha, hn]
  rfl

theorem preserveCase_of_small (hs : ∀ c ∈ found, c.isUpper = false) :
    preserveCase found r = r := by
  have ha : found.any Char.isAlpha = found.any Char.isLower := by
    apply any_congr_left
    intro c hc
    rw [Char.isAlpha, hs c hc, Bool.false_or]
  have hh : found.head?.any Char.isUpper = false := by
    cases found with
    | nil => rfl
    | cons f t => exact hs f List.mem_cons_self
  rw [preserveCase_of_ascii r hf, ha, hh]
  simp

end

theorem preserveCase_capital {f : Char} {t r : List Char} (hf : IsAscii (f :: t))
    (hl : f.isLower = true) (h : t.any Char.isLower = true ∨ r.length ≤ 1) :
    preserveCase (f.toUpper :: t) r = capitalize r := by
  have hc : IsAscii (f.toUpper :: t) := hf.capitalize ▸ hf.ascii_capitalize
  have hu : (f.toUpper :: t).head?.any Char.isUpper = true := by simp [Char.isAlpha, hl]
  rw [preserveCase_of_ascii r hc, hu]
  rcases h with h | h
  · simp [h]
  · -- In a single letter, all capitals and a capital first are the same.
    have hr : toUpper r = capitalize r := by
      cases r with
      | nil => rfl
      | cons c r =>
        have hnil : r = [] := List.eq_nil_of_length_eq_zero (by simpa using h)
        rw [hnil]
        rfl
    rw [hr]
    split <;> rfl

/-! ## Plurals and singulars -/

/-- Both are in small letters, and what is put in place of a single letter is no longer than that. -/
structure IsPlural (e : String × String) : Prop where
  plural : e.1.toList.all Char.isLower = true
  singular : IsAscii e.2.toList
  ne_nil : e.1.toList ≠ []
  short : e.1.toList.length ≤ 1 → e.2.toList.length ≤ 1

instance (e : String × String) : Decidable (IsPlural e) :=
  decidable_of_iff (e.1.toList.all Char.isLower = true ∧ IsAscii e.2.toList ∧ e.1.toList ≠ [] ∧
      (e.1.toList.length ≤ 1 → e.2.toList.length ≤ 1))
    ⟨fun ⟨hp, hs, hn, h⟩ => ⟨hp, hs, hn, h⟩, fun h => ⟨h.plural, h.singular, h.ne_nil, h.short⟩⟩

theorem isPlural_irregular : ∀ e ∈ Singularizer.irregularWords, IsPlural e := by decide

theorem isPlural_ending : ∀ e ∈ Singularizer.endings, IsPlural e := by decide

theorem IsPlural.map_fold {e : String × String} (h : IsPlural e) : e.1.toList.map fold = e.1.toList :=
  (List.map_congr_left fun c hc => fold_of_isLower (List.all_eq_true.1 h.plural c hc)).trans
    (List.map_id e.1.toList)

section
variable {e : String × String} {n : Nat} {word : List Char} (he : IsPlural e)
  (hn : (word.drop n).map Char.toLower = e.1.toList)
include he hn

/-- What is replaced are letters. -/
theorem IsPlural.alpha {c : Char} (hc : c ∈ word.drop n) : c.isAlpha = true := by
  have h := List.all_eq_true.1 he.plural c.toLower (hn ▸ List.mem_map_of_mem hc)
  rwa [Char.isLower_toLower_eq_isAlpha] at h

theorem changeAt_toUpper (hw : IsAscii word) :
    changeAt n e (word.map Char.toUpper) = toUpper (changeAt n e word) := by
  have hl : (word.drop n).any Char.isAlpha = true := by
    cases hd : word.drop n with
    | nil => exact absurd (hn.symm.trans (by rw [hd]; rfl)) he.ne_nil
    | cons c t => simp [he.alpha hn (hd ▸ List.mem_cons_self)]
  have ht : toUpper (word.take n ++ preserveCase (word.drop n) e.2.toList) =
      toUpper (word.take n) ++ toUpper (preserveCase (word.drop n) e.2.toList) := List.flatMap_append
  unfold changeAt
  rw [ht, toUpper_preserveCase (hw.drop n) he.singular, (hw.take n).toUpper, ← List.map_take,
    ← List.map_drop, preserveCase_toUpper _ (hw.drop n) hl]

theorem changeAt_capitalize (hw : IsAscii word) (hs : ∀ c ∈ word, c.isUpper = false) :
    changeAt n e (capitalize word) = capitalize (changeAt n e word) := by
  have hlower : ∀ c ∈ word.drop n, c.isLower = true := by
    intro c hc
    have h := he.alpha hn hc
    rwa [Char.isAlpha, hs c (List.mem_of_mem_drop hc), Bool.false_or] at h
  have hsmall : preserveCase (word.drop n) e.2.toList = e.2.toList :=
    preserveCase_of_small _ (hw.drop n) fun c hc => hs c (List.mem_of_mem_drop hc)
  unfold changeAt
  rw [hsmall]
  cases word with
  | nil => exact absurd (hn.symm.trans (by rw [List.drop_nil]; rfl)) he.ne_nil
  | cons c t =>
    rw [hw.capitalize]
    cases n with
    | zero =>
      rw [List.drop_zero] at hn hlower
      have hshort : t.any Char.isLower = true ∨ e.2.toList.length ≤ 1 := by
        cases t with
        | nil =>
          refine .inr (he.short ?_)
          simp [← hn]
        | cons d t => exact .inl (by simp [hlower d (by simp)])
      exact preserveCase_capital hw (hlower c List.mem_cons_self) hshort
    | succ n =>
      rw [List.drop_succ_cons] at hsmall ⊢
      rw [hsmall, List.take_succ_cons, List.take_succ_cons]
      have hc : capitalize (c :: (t.take n ++ e.2.toList)) = c.toUpper :: (t.take n ++ e.2.toList) := by
        simp [capitalize, upper_of_ascii hw.of_cons.1]
      exact hc.symm

end

/-! ## Words -/

theorem singular_eq {word : List Char} (hne : word ≠ []) (hw : IsAscii word) :
    singular (String.ofList word) =
      match Singularizer.standard.irregular.get? (String.ofList (word.map Char.toLower)) with
      | some v => String.ofList (preserveCase word v.toList)
      | none => String.ofList
          (Singularizer.applyRules (Singularizer.rulesOf Singularizer.endings) word) := by
  have he : (String.ofList word).isEmpty = false := by simp [hne]
  rw [singular, Singularizer.apply, he, lowered, String.toList_ofList, hw.toLower]
  rfl

/-- Of words that differ in case only, none is changed, or all are at the same place to the same
singular. -/
theorem singular_folded (folds : List Char) :
    (∀ word, IsAscii word → word.map Char.toLower = folds →
      singular (String.ofList word) = String.ofList word) ∨
    ∃ e n, IsPlural e ∧ folds.drop n = e.1.toList ∧
      ∀ word, IsAscii word → word.map Char.toLower = folds →
        singular (String.ofList word) = String.ofList (changeAt n e word) := by
  by_cases hne : folds = []
  · refine .inl fun word _ h => ?_
    rw [hne, List.map_eq_nil_iff] at h
    rw [h]
    rfl
  have hword : ∀ {word : List Char}, word.map Char.toLower = folds → word ≠ [] := by
    rintro _ h rfl
    exact hne h.symm
  cases hi : Singularizer.standard.irregular.get? (String.ofList folds) with
  | some v =>
    have hp : IsPlural (String.ofList folds, v) := isPlural_irregular _ (Table.mem_of_get?_ofList hi)
    refine .inr ⟨_, 0, hp, by simp, fun word hw h => ?_⟩
    rw [singular_eq (hword h) hw, h, hi]
    rfl
  | none =>
    have hrules : ∀ word, IsAscii word → word.map Char.toLower = folds →
        singular (String.ofList word) = String.ofList
          (Singularizer.applyRules (Singularizer.rulesOf Singularizer.endings) word) := by
      intro word hw h
      rw [singular_eq (hword h) hw, h, hi]
    cases hr : Singularizer.endings.find? (fits folds) with
    | none =>
      refine .inl fun word hw h => ?_
      rw [hrules word hw h, Singularizer.applyRules_rulesOf, hw.map_fold, h, hr]
    | some e =>
      have hp : IsPlural e := isPlural_ending e (List.mem_of_find?_eq_some hr)
      have hfit : folds.drop (folds.length - e.1.toList.length) = e.1.toList := by
        have h := List.find?_some hr
        rwa [fits, beq_iff_eq, hp.map_fold] at h
      refine .inr ⟨e, folds.length - e.1.toList.length, hp, hfit, fun word hw h => ?_⟩
      have hlen : word.length = folds.length := by rw [← h, List.length_map]
      rw [hrules word hw h, Singularizer.applyRules_rulesOf, hw.map_fold, h, hr, hlen]

section
variable {word : List Char} (hw : IsAscii word)
include hw

theorem singular_toUpper :
    singular (String.ofList (toUpper word)) = uppercased (singular (String.ofList word)) := by
  have hfolds : (word.map Char.toUpper).map Char.toLower = word.map Char.toLower := by simp
  rw [hw.toUpper, uppercased]
  rcases singular_folded (word.map Char.toLower) with h | ⟨e, n, he, hn, h⟩
  · rw [h _ hw.map_toUpper hfolds, h word hw rfl, String.toList_ofList, hw.toUpper]
  · rw [← List.map_drop] at hn
    rw [h _ hw.map_toUpper hfolds, h word hw rfl, String.toList_ofList, changeAt_toUpper he hn hw]

theorem singular_capitalize (hs : ∀ c ∈ word, c.isUpper = false) :
    singular (String.ofList (capitalize word)) = capitalized (singular (String.ofList word)) := by
  rw [capitalized]
  rcases singular_folded (word.map Char.toLower) with h | ⟨e, n, he, hn, h⟩
  · rw [h _ hw.ascii_capitalize hw.map_toLower_capitalize, h word hw rfl, String.toList_ofList]
  · rw [← List.map_drop] at hn
    rw [h _ hw.ascii_capitalize hw.map_toLower_capitalize, h word hw rfl, String.toList_ofList,
      changeAt_capitalize he hn hw hs]

end

/-- The singular of a word of ASCII characters in capitals is in capitals, and where the word has no
capitals, the singular of the word with a capital first is the singular with a capital first. -/
theorem singular_cases (word : String) (hw : IsAscii word.toList) :
    singular (uppercased word) = uppercased (singular word) ∧
      ((∀ c ∈ word.toList, isUppercase c = false) →
        singular (capitalized word) = capitalized (singular word)) := by
  constructor
  · have h := singular_toUpper hw
    rwa [String.ofList_toList] at h
  · intro hs
    have h := singular_capitalize hw fun c hc => isUppercase_of_ascii (hw c hc) ▸ hs c hc
    rwa [String.ofList_toList] at h

/-- An ending behind digits, and an ending that is the whole word. -/
theorem singular_cases_matches :
    IsAscii "my_2_matches".toList ∧ IsAscii "ches".toList ∧
      (∀ c ∈ "ches".toList, isUppercase c = false) ∧
      singular "MY_2_MATCHES" = "MY_2_MATCH" ∧ singular "Ches" = "Ch" ∧ singular "CHES" = "CH" := by
  have hm : IsAscii "my_2_matches".toList := by decide
  have hc : IsAscii "ches".toList := by decide
  have hs : ∀ c ∈ "ches".toList, isUppercase c = false := by
    have h : ("ches".toList.all fun c => !isUppercase c) = true := by decide
    simpa using h
  obtain ⟨hmatches, -⟩ := singular_cases "my_2_matches" hm
  obtain ⟨hupper, hcapital⟩ := singular_cases "ches" hc
  have hch : singular "ches" = "ch" := by decide
  have hmatch : singular "my_2_matches" = "my_2_match" := by decide
  rw [hmatch] at hmatches
  rw [hch] at hupper hcapital
  exact ⟨hm, hc, hs, hmatches, hcapital hs, hupper⟩

end Stencil.Naming
