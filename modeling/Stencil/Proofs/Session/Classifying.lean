import Stencil.Scope
import Stencil.Binding.Classification

/-!
# Bound names

A name is bound from its first binding on, in the history or globally, until all is forgotten; what
is visible in a scope is in the history. The standard classifier looks at the visible binding.
-/

namespace Stencil

namespace Scopes

/-- The name was bound, in a scope or globally. -/
def Bound (s : Scopes) (name : String) : Prop :=
  s.wasScopeBound name = true ∨ s.isGlobal name = true

/-- What is bound in an open scope is in the history. -/
def Remembered (s : Scopes) : Prop :=
  ∀ scope ∈ s.stack, ∀ n, scope.bindings.contains n = true → s.wasScopeBound n = true

structure Keeps (s s' : Scopes) : Prop where
  history : ∀ n, s.wasScopeBound n = true → s'.wasScopeBound n = true
  globals : ∀ n, s.isGlobal n = true → s'.isGlobal n = true

variable {s : Scopes}

theorem not_bound_empty (n : String) : ¬ empty.Bound n := by
  rintro (h | h) <;> cases h

theorem remembered_empty : empty.Remembered := fun _ h => by cases h

theorem Remembered.wasScopeBound (h : s.Remembered) {n : String} {b : Binding}
    (hb : s.scopeValue? n = some b) : s.wasScopeBound n = true := by
  obtain ⟨scope, hm, hs⟩ := List.exists_of_findSome?_eq_some hb
  refine h scope hm n ?_
  rw [Table.contains, hs]
  rfl

theorem Remembered.push (h : s.Remembered) (kind : ScopeKind) (name : String) :
    (s.push kind name).Remembered := by
  intro scope hm n hn
  rcases List.mem_cons.1 hm with rfl | hm
  · cases hn
  · exact h scope hm n hn

theorem Remembered.unwindTo (h : s.Remembered) (depth : Nat) : (s.unwindTo depth).Remembered :=
  fun scope hm => h scope (List.mem_of_mem_drop hm)

/-! ## Binding a name -/

variable {name : String} {b : Binding}

theorem Remembered.defineGlobal (h : s.Remembered) : (s.defineGlobal name b).Remembered := h

theorem keeps_defineGlobal (s : Scopes) (name : String) (b : Binding) :
    Keeps s (s.defineGlobal name b) where
  history _ := id
  globals n h := by
    have hg : s.globals.contains n = true := h
    rw [isGlobal, Scopes.defineGlobal, Table.contains_set, hg, Bool.or_true]

theorem keeps_define (s : Scopes) (name : String) (b : Binding) : Keeps s (s.define name b) := by
  unfold define
  split
  · exact keeps_defineGlobal s name b
  · refine ⟨fun n h => ?_, fun _ => id⟩
    have hh : s.history.contains n = true := h
    rw [wasScopeBound, Table.contains_set, hh, Bool.or_true]

theorem Remembered.define (h : s.Remembered) : (s.define name b).Remembered := by
  cases hs : s.stack with
  | nil =>
    rw [Scopes.define, hs]
    exact h
  | cons inner outer =>
    rw [Remembered, hs] at h
    rw [Scopes.define, hs]
    intro scope hm n hn
    show (s.history.set name b).contains n = true
    rw [Table.contains_set, Bool.or_eq_true]
    rcases List.mem_cons.1 hm with rfl | hm
    · rw [Table.contains_set, Bool.or_eq_true] at hn
      exact hn.imp_right (h inner List.mem_cons_self n)
    · exact .inr (h scope (List.mem_cons_of_mem _ hm) n hn)

theorem bound_defineGlobal {n : String} : (s.defineGlobal name b).Bound n ↔ n = name ∨ s.Bound n := by
  simp only [Bound, wasScopeBound, isGlobal, Scopes.defineGlobal, Table.contains_set,
    Bool.or_eq_true, beq_iff_eq]
  rw [or_left_comm]

theorem bound_define {n : String} : (s.define name b).Bound n ↔ n = name ∨ s.Bound n := by
  unfold Scopes.define
  split
  · exact bound_defineGlobal
  · simp only [Bound, wasScopeBound, isGlobal, Table.contains_set, Bool.or_eq_true, beq_iff_eq]
    rw [or_assoc]

/-! ## A binding that stays visible -/

/-- Above so many outer scopes one has this binding of the name, and none further in has any. -/
def Shows (s : Scopes) (outer : Nat) (name : String) (b : Binding) : Prop :=
  ∃ upper scope lower, s.stack = upper ++ scope :: lower ∧ lower.length = outer ∧
    (∀ u ∈ upper, u.bindings.get? name = none) ∧ scope.bindings.get? name = some b

theorem shows_define (s : Scopes) (kind : ScopeKind) (label name : String) (b : Binding) :
    ((s.push kind label).define name b).Shows s.depth name b := by
  refine ⟨[], ⟨kind, label, Table.empty.set name b⟩, s.stack, rfl, rfl,
    fun u hu => absurd hu List.not_mem_nil, ?_⟩
  rw [Table.get?_set, if_pos rfl]

namespace Shows

variable {outer : Nat}

theorem scopeValue? (h : s.Shows outer name b) : s.scopeValue? name = some b := by
  obtain ⟨upper, scope, lower, hs, -, hu, hb⟩ := h
  have hn : upper.findSome? (·.bindings.get? name) = none := List.findSome?_eq_none_iff.2 hu
  rw [Scopes.scopeValue?, hs, List.findSome?_append, hn, List.findSome?_cons, hb]
  rfl

theorem push (h : s.Shows outer name b) (kind : ScopeKind) (label : String) :
    (s.push kind label).Shows outer name b := by
  obtain ⟨upper, scope, lower, hs, hl, hu, hb⟩ := h
  refine ⟨⟨kind, label, .empty⟩ :: upper, scope, lower, ?_, hl, fun u hm => ?_, hb⟩
  · rw [Scopes.push, hs, List.cons_append]
  · rcases List.mem_cons.1 hm with rfl | hm
    · rfl
    · exact hu u hm

theorem unwindTo (h : s.Shows outer name b) {depth : Nat} (hd : outer < (s.unwindTo depth).depth) :
    (s.unwindTo depth).Shows outer name b := by
  obtain ⟨upper, scope, lower, hs, hl, hu, hb⟩ := h
  have hlen : s.stack.length = upper.length + (outer + 1) := by
    rw [hs, List.length_append, List.length_cons, hl]
  -- All that is closed lies above the scope.
  have hn : s.stack.length - depth ≤ upper.length := by
    rw [depth_unwindTo, Scopes.depth] at hd
    omega
  refine ⟨upper.drop (s.stack.length - depth), scope, lower, ?_, hl, ?_, hb⟩
  · rw [Scopes.unwindTo]
    simp only
    rw [← List.drop_append_of_le_length hn, ← hs]
  · exact fun u hm => hu u (List.mem_of_mem_drop hm)

theorem define (h : s.Shows outer name b) {n : String} (hn : n ≠ name) (b' : Binding) :
    (s.define n b').Shows outer name b := by
  obtain ⟨upper, scope, lower, hs, hl, hu, hb⟩ := h
  cases upper with
  | nil =>
    rw [List.nil_append] at hs
    refine ⟨[], { scope with bindings := scope.bindings.set n b' }, lower, ?_, hl,
      fun u hm => absurd hm List.not_mem_nil, ?_⟩
    · rw [Scopes.define, hs]
      rfl
    · rw [Table.get?_set, if_neg hn.symm, hb]
  | cons inner upper =>
    rw [List.cons_append] at hs
    refine ⟨{ inner with bindings := inner.bindings.set n b' } :: upper, scope, lower, ?_, hl,
      fun u hm => ?_, hb⟩
    · rw [Scopes.define, hs]
      rfl
    · rcases List.mem_cons.1 hm with rfl | hm
      · rw [Table.get?_set, if_neg hn.symm]
        exact hu inner List.mem_cons_self
      · exact hu u (List.mem_cons_of_mem _ hm)

end Shows

end Scopes

theorem Classifier.classify_standard (expression : String) (scopes : Scopes) (source : GlobalSource) :
    standard.classify expression scopes source =
      match scopes.scopeValue? (rootOf expression) with
      | some (.marker t) => ⟨.scopeItem, t, true⟩
      | some (.value v) => ⟨.localVariable, v.displayName, false⟩
      | none =>
        if source.contains (rootOf expression) then
          ⟨.global, ((source.get? (rootOf expression)).map (·.displayName)).getD objectType, false⟩
        else
          match scopes.globalValue? (rootOf expression) with
          | some b => ⟨.global, b.typeName, false⟩
          | none => .undefined := by
  rw [classify, standard, List.findSome?_cons, List.findSome?_cons, List.findSome?_cons]
  cases hs : scopes.scopeValue? (rootOf expression) with
  | some b => cases b <;> simp only [Detector.scopeItem, Detector.localVariable, hs] <;> rfl
  | none =>
    simp only [Detector.scopeItem, Detector.localVariable, Detector.global, hs]
    cases source.contains (rootOf expression) with
    | true => rfl
    | false => cases scopes.globalValue? (rootOf expression) <;> rfl

end Stencil
