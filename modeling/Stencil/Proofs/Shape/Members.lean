import Stencil.Proofs.Table.Keys
import Stencil.Shape.Discovery

/-!
# The members behind the fields

A field of a discovered type comes from the last declared field of its name, and if none is declared
from the first accessor that stands for it. Each accessor adds either a field or a warning, so
members that are interleaved in another way make no difference and no accessor is lost.
-/

namespace Stencil

/-- The property that an accessor stands for. -/
def Member.property? (m : Member) : Option String := Naming.property? m.name m.type.isBool

namespace Discovery

variable {owner : String} {d : Discovery} {m : Member} {p : String}

/-! ## One accessor -/

theorem addAccessor_of_none (h : m.property? = none) :
    d.addAccessor owner m = { d with warnings := d.warnings ++ [.noGetter owner m.name] } := by
  have h : Naming.property? m.name m.type.isBool = none := h
  rw [addAccessor, h]

theorem addAccessor_of_taken (h : m.property? = some p) (hp : d.fields.contains p = true) :
    d.addAccessor owner m = { d with warnings := d.warnings ++ [.duplicate owner m.name p] } := by
  have h : Naming.property? m.name m.type.isBool = some p := h
  simp only [addAccessor, h, hp, if_true]

theorem addAccessor_of_free (h : m.property? = some p) (hp : d.fields.contains p = false) :
    d.addAccessor owner m = { d with fields := d.fields.set p m.type } := by
  have h : Naming.property? m.name m.type.isBool = some p := h
  simp only [addAccessor, h, hp, Bool.false_eq_true, if_false]

/-- Fields that are there stay, and only the accessor's own property is added. -/
theorem get?_addAccessor (owner : String) (d : Discovery) (m : Member) (n : String) :
    (d.addAccessor owner m).fields.get? n =
      (d.fields.get? n).or (if m.property? = some n then some m.type else none) := by
  cases h : m.property? with
  | none =>
    rw [addAccessor_of_none h, if_neg (Option.some_ne_none n).symm, Option.or_none]
  | some p =>
    simp only [Option.some_inj]
    cases hp : d.fields.contains p with
    | true =>
      rw [addAccessor_of_taken h hp]
      split
      · rename_i hn
        obtain ⟨t, ht⟩ := Option.isSome_iff_exists.1 hp
        rw [← hn, ht, Option.some_or]
      · rw [Option.or_none]
    | false =>
      rw [addAccessor_of_free h hp, Table.get?_set]
      by_cases hn : n = p
      · have ht : d.fields.get? n = none := by
          rw [← Option.not_isSome_iff_eq_none, hn]
          exact Bool.eq_false_iff.1 hp
        rw [if_pos hn, if_pos hn.symm, ht, Option.none_or]
      · rw [if_neg hn, if_neg (Ne.symm hn), Option.or_none]

/-- An accessor adds one field or one warning. -/
theorem size_addAccessor (owner : String) (d : Discovery) (m : Member) :
    (d.addAccessor owner m).fields.size + (d.addAccessor owner m).warnings.length =
      d.fields.size + d.warnings.length + 1 := by
  cases h : m.property? with
  | none => rw [addAccessor_of_none h, List.length_append, List.length_singleton, Nat.add_assoc]
  | some p =>
    cases hp : d.fields.contains p with
    | true =>
      rw [addAccessor_of_taken h hp, List.length_append, List.length_singleton, Nat.add_assoc]
    | false =>
      rw [addAccessor_of_free h hp, Table.size_set_of_not_contains hp, Nat.add_right_comm]

/-! ## All accessors -/

theorem get?_addAccessors (owner : String) (d : Discovery) (as : List Member) (n : String) :
    (as.foldl (addAccessor owner) d).fields.get? n =
      (d.fields.get? n).or ((as.find? (·.property? == some n)).map (·.type)) := by
  induction as generalizing d with
  | nil => rw [List.find?_nil, Option.map_none, Option.or_none]; rfl
  | cons m as ih =>
    rw [List.foldl_cons, ih, get?_addAccessor, Option.or_assoc, List.find?_cons]
    by_cases h : m.property? = some n
    · simp [h]
    · simp [h, beq_eq_false_iff_ne.2 h]

theorem size_addAccessors (owner : String) (d : Discovery) (as : List Member) :
    (as.foldl (addAccessor owner) d).fields.size + (as.foldl (addAccessor owner) d).warnings.length =
      d.fields.size + d.warnings.length + as.length := by
  induction as generalizing d with
  | nil => rfl
  | cons m as ih =>
    rw [List.foldl_cons, ih, size_addAccessor, List.length_cons, Nat.add_assoc, Nat.add_comm 1]

/-! ## Declared fields -/

theorem get?_declared (ms : List Member) (n : String) :
    (declared ms).get? n =
      (ms.findRev? fun m => !m.isAccessor && m.name == n).map (·.type) := by
  rw [declared, Table.ofList, Table.get?_setAll, Table.get?_empty, Option.or_none,
    List.findRev?_eq_find?_reverse, List.findRev?_eq_find?_reverse, ← List.map_reverse,
    List.find?_map, ← List.filter_reverse, List.find?_filter]
  simp only [Option.map_map, Function.comp_def, Bool.decide_and, Bool.decide_eq_true]

theorem size_declared (ms : List Member) :
    (declared ms).size = ((ms.filter (!·.isAccessor)).map (·.name)).toFinset.card := by
  rw [declared, Table.size_ofList, List.map_map]
  rfl

end Discovery

/-- What a type is discovered to be follows from its declared fields and its accessors, each kind in
its order: the last declared field of a name counts, else the first accessor that stands for it; and
whatever adds no field leaves a warning, if it is not a declared field that a later one replaces. -/
theorem Graph.discover_exact (g : Graph) (t : Descriptor) :
    let ms := g.members t
    let d := g.discover t
    (∀ n, d.fields.get? n = ((ms.findRev? fun m => !m.isAccessor && m.name == n).or
      (ms.find? fun m => m.isAccessor && m.property? == some n)).map (·.type)) ∧
    (∀ g' : Graph, (g'.members t).filter (·.isAccessor) = ms.filter (·.isAccessor) →
      (g'.members t).filter (!·.isAccessor) = ms.filter (!·.isAccessor) → g'.discover t = d) ∧
    d.fields.size + d.warnings.length =
      ((ms.filter (!·.isAccessor)).map (·.name)).toFinset.card +
        (ms.filter (·.isAccessor)).length := by
  intro ms d
  refine ⟨fun n => ?_, fun g' ha hf => ?_, ?_⟩
  · have h := Discovery.get?_addAccessors t.name ⟨Discovery.declared ms, []⟩
      (ms.filter (·.isAccessor)) n
    rw [Discovery.get?_declared, List.find?_filter] at h
    simp only [Bool.decide_and, Bool.decide_eq_true] at h
    rw [Option.map_or]
    exact h
  · show Discovery.ofMembers t.name (g'.members t) = Discovery.ofMembers t.name ms
    rw [Discovery.ofMembers, Discovery.ofMembers, Discovery.declared, Discovery.declared, ha, hf]
  · rw [← Discovery.size_declared]
    exact Discovery.size_addAccessors t.name ⟨Discovery.declared ms, []⟩ (ms.filter (·.isAccessor))

end Stencil
