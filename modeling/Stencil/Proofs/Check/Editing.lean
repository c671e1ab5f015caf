import Stencil.Proofs.Session.Moves

/-!
# Editing a chain

A rule is put into a chain and taken out of it again at the same index, and the other rules keep their
order. An index out of bounds is told together with the length of the chain, and nothing changes: so
the rules after a script are those of a list in which such edits are passed over.
-/

namespace Stencil

namespace Chain

/-- `k'` has the rule at the index, and else the rules of `k` in their order. -/
structure Inserted (k : Chain) (index : Nat) (rule : Rule) (k' : Chain) : Prop where
  here : k'.rules[index]? = some rule
  before : ∀ i, i < index → k'.rules[i]? = k.rules[i]?
  after : ∀ i, index ≤ i → k'.rules[i + 1]? = k.rules[i]?

variable {k k' : Chain} {index : Nat} {rule : Rule}

namespace Inserted

theorem le_length (h : k.Inserted index rule k') : index ≤ k.length := by
  refine Nat.le_of_not_lt fun hlt => ?_
  -- Where `k` ends `k'` has to end too, and that is before the index.
  have hnone : k'.rules[k.length]? = none :=
    (h.before k.length hlt).trans (List.getElem?_eq_none (Nat.le_refl _))
  have hend : k'.rules.length ≤ k.length := List.getElem?_eq_none_iff.1 hnone
  have hhere := h.here
  rw [List.getElem?_eq_none (Nat.le_trans hend (Nat.le_of_lt hlt))] at hhere
  cases hhere

theorem rules_eq (h : k.Inserted index rule k') : k'.rules = k.rules.insertIdx index rule := by
  apply List.ext_getElem?
  intro i
  rcases Nat.lt_trichotomy i index with hi | rfl | hi
  · rw [h.before i hi, List.getElem?_insertIdx_of_lt hi]
  · rw [h.here, List.getElem?_insertIdx_self]
    exact (if_pos h.le_length).symm
  · obtain ⟨i, rfl⟩ := Nat.exists_eq_add_of_lt hi
    rw [h.after (index + i) (Nat.le_add_right ..), List.getElem?_insertIdx_of_gt hi,
      Nat.add_sub_cancel]

theorem rules_eq_eraseIdx (h : k.Inserted index rule k') : k.rules = k'.rules.eraseIdx index := by
  apply List.ext_getElem?
  intro i
  by_cases hi : i < index
  · rw [List.getElem?_eraseIdx_of_lt hi, h.before i hi]
  · have hi := Nat.le_of_not_lt hi
    rw [List.getElem?_eraseIdx_of_ge hi, h.after i hi]

end Inserted

theorem inserted_insertIdx (h : index ≤ k.length) (rule : Rule) :
    k.Inserted index rule ⟨k.rules.insertIdx index rule⟩ where
  here := List.getElem?_insertIdx_self.trans (if_pos h)
  before _ hi := List.getElem?_insertIdx_of_lt hi
  after _ hi := List.getElem?_insertIdx_of_gt (Nat.lt_succ_of_le hi)

theorem inserted_eraseIdx (h : k.rules[index]? = some rule) :
    (Chain.mk (k.rules.eraseIdx index)).Inserted index rule k where
  here := h
  before _ hi := (List.getElem?_eraseIdx_of_lt hi).symm
  after _ hi := (List.getElem?_eraseIdx_of_ge hi).symm

/-! ## One edit -/

theorem take_append_cons_drop {rules : List Rule} (h : index ≤ rules.length) (rule : Rule) :
    rules.take index ++ rule :: rules.drop index = rules.insertIdx index rule := by
  induction index generalizing rules with
  | zero => rfl
  | succ index ih =>
    cases rules with
    | nil => cases h
    | cons r rules =>
      rw [List.insertIdx_succ_cons, ← ih (Nat.le_of_succ_le_succ h)]
      rfl

theorem insert_of_le (h : index ≤ k.length) (rule : Rule) :
    k.insert index rule = .ok ⟨k.rules.insertIdx index rule⟩ := by
  rw [insert, if_pos h, take_append_cons_drop h]

theorem insert_of_lt (h : k.length < index) (rule : Rule) :
    k.insert index rule = .error (.outOfBounds index k.length) :=
  if_neg (Nat.not_le_of_lt h)

theorem remove_of_inserted (h : k.Inserted index rule k') : k'.remove index = .ok (rule, k) := by
  rw [remove, h.here]
  simp only [← h.rules_eq_eraseIdx]

theorem remove_of_le (h : k.length ≤ index) : k.remove index = .error (.outOfBounds index k.length) := by
  rw [remove, List.getElem?_eq_none h]

end Chain

/-- The rules after an edit; an index out of bounds changes nothing. -/
def ChainEdit.rulesAfter (rules : List Rule) : ChainEdit → List Rule
  | add rule => rules ++ [rule]
  | insert index rule => rules.insertIdx index rule
  | remove index => rules.eraseIdx index
  | clear => []

def Move.edit? : Move → Option ChainEdit
  | .edit change => some change
  | _ => none

namespace Session

variable {s : Session} {k : Chain} {index : Nat} {rule : Rule} {fault : ChainFault}

theorem edit_ok {change : ChainEdit} {out : Option Rule} (h : change.apply s.chain = .ok (out, k)) :
    s.edit change = (.edited (.ok out) k, { s with chain := k }) := by
  rw [edit, h]

theorem edit_error {change : ChainEdit} (h : change.apply s.chain = .error fault) :
    s.edit change = (.edited (.error fault) s.chain, s) := by
  rw [edit, h]

theorem edit_insert (h : s.chain.Inserted index rule k) :
    s.edit (.insert index rule) = (.edited (.ok none) k, { s with chain := k }) := by
  apply edit_ok
  rw [ChainEdit.apply, Chain.insert_of_le h.le_length, ← h.rules_eq]
  rfl

theorem edit_insert_of_lt (h : s.chain.length < index) :
    s.edit (.insert index rule) = (.edited (.error (.outOfBounds index s.chain.length)) s.chain, s) := by
  apply edit_error
  rw [ChainEdit.apply, Chain.insert_of_lt h]
  rfl

theorem edit_remove (h : k.Inserted index rule s.chain) :
    s.edit (.remove index) = (.edited (.ok (some rule)) k, { s with chain := k }) := by
  apply edit_ok
  rw [ChainEdit.apply, Chain.remove_of_inserted h]
  rfl

theorem edit_remove_of_le (h : s.chain.length ≤ index) :
    s.edit (.remove index) = (.edited (.error (.outOfBounds index s.chain.length)) s.chain, s) := by
  apply edit_error
  rw [ChainEdit.apply, Chain.remove_of_le h]
  rfl

/-! ## Any script -/

theorem rules_edit (s : Session) (change : ChainEdit) :
    (s.edit change).2.chain.rules = change.rulesAfter s.chain.rules := by
  cases change with
  | add rule => rfl
  | insert index rule =>
    by_cases h : index ≤ s.chain.length
    · rw [edit_insert (Chain.inserted_insertIdx h rule)]
      rfl
    · have h := Nat.lt_of_not_le h
      rw [edit_insert_of_lt h]
      exact (List.insertIdx_of_length_lt h).symm
  | remove index =>
    cases hr : s.chain.rules[index]? with
    | some rule =>
      rw [edit_remove (Chain.inserted_eraseIdx hr)]
      rfl
    | none =>
      have h : s.chain.length ≤ index := List.getElem?_eq_none_iff.1 hr
      rw [edit_remove_of_le h]
      exact (List.eraseIdx_of_length_le h).symm
  | clear => rfl

theorem rules_after (ms : List Move) : (s.after ms).chain.rules =
    (ms.filterMap Move.edit?).foldl ChainEdit.rulesAfter s.chain.rules := by
  induction ms generalizing s with
  | nil => rfl
  | cons m ms ih =>
    rw [after_cons, ih]
    cases m with
    | edit change => exact congrArg (List.foldl _ · _) (rules_edit s change)
    | _ => rfl

/-- After any script the chain has the rules that its edits make of the ones before, edits out of bounds
passed over. To put a rule in succeeds up to the end of the chain; the rule is then at the index, the
others are in their order, and to take it out there gives it back and leaves all as it was. To take one
out succeeds where there is a rule. An edit that fails tells the index and the length of the chain, and
leaves all as it was. -/
theorem edits_exact (g : Graph) (s : Session) (c : Catalog) (xs : List Step) :
    let s' := (s.run g c xs).2.1
    let k := s'.chain
    k.rules = ((s.moves xs).filterMap Move.edit?).foldl ChainEdit.rulesAfter s.chain.rules ∧
    ∀ (c' : Catalog) (index : Nat),
      (∀ rule, index ≤ k.length → ∃ k', k.Inserted index rule k' ∧
        let s'' := { s' with chain := k' }
        s'.step g c' (.edit (.insert index rule)) = (.edited (.ok none) k', s'', c') ∧
          s''.step g c' (.edit (.remove index)) = (.edited (.ok (some rule)) k, s', c')) ∧
      (∀ rule, k.length < index → s'.step g c' (.edit (.insert index rule)) =
        (.edited (.error (.outOfBounds index k.length)) k, s', c')) ∧
      (index < k.length → ∃ rule k', k'.Inserted index rule k ∧
        s'.step g c' (.edit (.remove index)) =
          (.edited (.ok (some rule)) k', { s' with chain := k' }, c')) ∧
      (k.length ≤ index → s'.step g c' (.edit (.remove index)) =
        (.edited (.error (.outOfBounds index k.length)) k, s', c')) := by
  intro s' k
  refine ⟨?_, fun c' index => ⟨fun rule h => ?_, fun rule h => ?_, fun h => ?_, fun h => ?_⟩⟩
  · have hs' : s' = s.after (s.moves xs) := congrArg (·.1) (run_spec g s c xs).1
    show s'.chain.rules = _
    rw [hs', rules_after]
  · have hi := Chain.inserted_insertIdx h rule
    refine ⟨_, hi, ?_, ?_⟩
    · rw [step, edit_insert hi]
    · have hr : Chain.Inserted k index rule { s' with chain := _ }.chain := hi
      rw [step, edit_remove hr]
  · rw [step, edit_insert_of_lt h]
  · have hr : k.rules[index]? = some k.rules[index] := List.getElem?_eq_getElem h
    have hi := Chain.inserted_eraseIdx hr
    refine ⟨_, _, hi, ?_⟩
    rw [step, edit_remove hi]
  · rw [step, edit_remove_of_le h]

/-- A rule put into the standard chain behind a try that fails, and one more try that fails. -/
theorem edits_exact_late :
    let s := (start ⟨[]⟩ (Globals.source .empty) .standard (.build .standard 0)).1
    let c := Catalog.build .standard 0
    let late : Rule := ⟨"late", .custom "L", fun _ _ c => (false, c), fun _ _ c => (.ok, c)⟩
    let s' := (s.run ⟨[]⟩ c [.edit (.insert 9 late), .edit (.insert 3 late)]).2.1
    s'.chain.names = ["global-existence", "scope-legitimacy", "field", "late"] ∧
    (s'.step ⟨[]⟩ c (.edit (.insert 5 late))).2.1 = s' ∧
    ∃ k', s'.chain.Inserted 4 late k' ∧
      (Session.step ⟨[]⟩ { s' with chain := k' } c (.edit (.remove 4))).2.1 = s' := by
  intro s c late s'
  obtain ⟨hk, h⟩ := edits_exact ⟨[]⟩ s c [.edit (.insert 9 late), .edit (.insert 3 late)]
  refine ⟨?_, ?_, ?_⟩
  · show s'.chain.rules.map (·.name) = _
    rw [hk]
    rfl
  · rw [(h c 5).2.1 late (by decide)]
  · obtain ⟨k', hi, -, hr⟩ := (h c 4).1 late (by decide)
    exact ⟨k', hi, congrArg (·.2.1) hr⟩

end Session

end Stencil
