import Stencil.Binding.Classification

/-!
# More detectors

Detectors are asked in a row, and the first answer counts. One more detector is heard only where none
before it answers; wherever it is not heard, or has nothing to say, all is classified as before. So
behind a detector that always answers it makes no difference.
-/

namespace Stencil

/-- The detector answers for every variable. -/
def Detector.Decides (d : Detector) : Prop :=
  ∀ root scopes source, (d.classify? root scopes source).isSome = true

theorem Detector.decides_undefined : undefined.Decides := fun _ _ _ => rfl

namespace Classifier

/-- The first answer, if any detector answers. -/
def answer? (k : Classifier) (root : String) (scopes : Scopes) (source : GlobalSource) :
    Option Classification :=
  k.detectors.findSome? (·.classify? root scopes source)

/-- The first detectors, so many of them. -/
def first (k : Classifier) (n : Nat) : Classifier := ⟨k.detectors.take n⟩

/-- All detectors but so many. -/
def rest (k : Classifier) (n : Nat) : Classifier := ⟨k.detectors.drop n⟩

variable {k : Classifier} {index : Nat} {d : Detector} {root : String} {scopes : Scopes}
  {source : GlobalSource}

theorem classify_eq (k : Classifier) (expression : String) (scopes : Scopes) (source : GlobalSource) :
    k.classify expression scopes source =
      (k.answer? (rootOf expression) scopes source).getD .undefined :=
  rfl

theorem answer?_eq_none_iff : k.answer? root scopes source = none ↔
    ∀ d ∈ k.detectors, d.classify? root scopes source = none :=
  List.findSome?_eq_none_iff

/-! ## One detector more -/

theorem answer?_split (k : Classifier) (n : Nat) : k.answer? root scopes source =
    ((k.first n).answer? root scopes source).or ((k.rest n).answer? root scopes source) := by
  unfold answer? first rest
  rw [← List.findSome?_append, List.take_append_drop]

theorem answer?_insert (k : Classifier) (index : Nat) (d : Detector) :
    (k.insert index d).answer? root scopes source =
      ((k.first index).answer? root scopes source).or
        ((d.classify? root scopes source).or ((k.rest index).answer? root scopes source)) := by
  unfold answer? first rest insert
  rw [List.findSome?_append, List.findSome?_cons]
  cases d.classify? root scopes source <;> rfl

theorem answer?_insert_of_heard (h : (k.first index).answer? root scopes source = none)
    {a : Classification} (ha : d.classify? root scopes source = some a) :
    (k.insert index d).answer? root scopes source = some a := by
  rw [answer?_insert, h, ha]
  rfl

theorem answer?_insert_of_not_heard
    (h : (k.first index).answer? root scopes source = none → d.classify? root scopes source = none) :
    (k.insert index d).answer? root scopes source = k.answer? root scopes source := by
  rw [answer?_insert, answer?_split k index]
  cases hf : (k.first index).answer? root scopes source with
  | some a => rfl
  | none => rw [h hf, Option.none_or]

theorem answer?_insert_of_decides (h : ∃ d' ∈ (k.first index).detectors, d'.Decides) :
    (k.insert index d).answer? root scopes source = k.answer? root scopes source := by
  obtain ⟨d', hm, hd⟩ := h
  refine answer?_insert_of_not_heard fun hn => ?_
  have hs := hd root scopes source
  rw [answer?_eq_none_iff.1 hn d' hm] at hs
  cases hs

/-! ## Classifying -/

theorem classify_insert_of_decides (h : ∃ d' ∈ (k.first index).detectors, d'.Decides) :
    (k.insert index d).classify = k.classify := by
  funext expression scopes source
  rw [classify_eq, answer?_insert_of_decides h, classify_eq]

theorem detectors_first (k : Classifier) (index : Nat) :
    (k.first index).detectors = k.detectors.take (min index k.detectors.length) := by
  show k.detectors.take index = _
  rw [List.take_eq_take_iff]
  omega

/-- With one more detector in a row an expression is classified by its answer where it answers for the
variable and none of the detectors before it does, and otherwise as without it. So nothing changes at
all if one of those before it always answers, as the last standard detector does. -/
theorem classify_insert (k : Classifier) (index : Nat) (d : Detector) :
    let before := k.detectors.take (min index k.detectors.length)
    (∀ expression scopes source,
      let Heard (a : Classification) :=
        (∀ d' ∈ before, d'.classify? (rootOf expression) scopes source = none) ∧
          d.classify? (rootOf expression) scopes source = some a
      (∀ a, Heard a → (k.insert index d).classify expression scopes source = a) ∧
      ((∀ a, ¬ Heard a) → (k.insert index d).classify expression scopes source =
        k.classify expression scopes source)) ∧
    ((∃ d' ∈ before, d'.Decides) → (k.insert index d).classify = k.classify) ∧
    (standard.detectors.length ≤ index → (standard.insert index d).classify = standard.classify) := by
  intro before
  have hbefore : before = (k.first index).detectors := (detectors_first k index).symm
  refine ⟨fun expression scopes source => ⟨?_, ?_⟩, fun h => ?_, fun h => ?_⟩
  · rintro a ⟨hn, ha⟩
    rw [hbefore] at hn
    rw [classify_eq, answer?_insert_of_heard (answer?_eq_none_iff.2 hn) ha]
    rfl
  · intro hh
    have hn : (k.first index).answer? (rootOf expression) scopes source = none →
        d.classify? (rootOf expression) scopes source = none := by
      intro hf
      rw [answer?_eq_none_iff, ← hbefore] at hf
      exact Option.eq_none_iff_forall_ne_some.2 fun a ha => hh a ⟨hf, ha⟩
    rw [classify_eq, answer?_insert_of_not_heard hn, classify_eq]
  · rw [hbefore] at h
    exact classify_insert_of_decides h
  · refine classify_insert_of_decides ⟨.undefined, ?_, Detector.decides_undefined⟩
    rw [first, List.take_of_length_le h]
    exact List.mem_of_getLast? rfl

/-- A word of its own is told in front of the standard detectors, and not behind them. -/
theorem classify_insert_clock :
    let clock : Detector := ⟨"reserved", fun root _ _ =>
      if root = "now" then some ⟨.global, "Clock", true⟩ else none⟩
    let source := Globals.source .empty
    (standard.insert 0 clock).classify "now.year" .empty source = ⟨.global, "Clock", true⟩ ∧
    (standard.insert 0 clock).classify "later" .empty source = .undefined ∧
    (standard.insert 9 clock).classify = standard.classify := by
  intro clock source
  obtain ⟨h, -, -⟩ := classify_insert standard 0 clock
  refine ⟨?_, ?_, ?_⟩
  · refine (h "now.year" .empty source).1 _ ⟨fun d' hd => ?_, by decide⟩
    cases hd
  · rw [(h "later" .empty source).2]
    · decide
    · rintro a ⟨-, ha⟩
      have hn : clock.classify? (rootOf "later") .empty source = none := by decide
      rw [hn] at ha
      cases ha
  · exact (classify_insert standard 9 clock).2.2 (by decide)

end Classifier

end Stencil
