import Stencil.Proofs.Scope.Log
import Stencil.Proofs.Session.Classifying

/-!
# The history in the log

The history is read off the log as the globals are: the last definition that was made with a scope
open counts, be the scope closed by now or not. Only a clearing takes from it. What is visible in a
scope was put into the history by the same definition.
-/

namespace Stencil

namespace ScopeLog

theorem isSome_last_iff {f : LogEntry → Option Binding} {l : List LogEntry} :
    (last f l).isSome = true ↔ ∃ e ∈ l, (f e).isSome = true := by
  induction l with
  | nil => simp
  | cons e l ih =>
    rw [last_cons, Option.isSome_or, Bool.or_eq_true, ih, List.exists_mem_cons_iff]
    exact or_comm

theorem isSome_scopeDefinition?_iff {x : String} {e : LogEntry} :
    (scopeDefinition? x e).isSome = true ↔ e.inScope = true ∧ ∃ b, e.move = .define x b := by
  obtain ⟨m, inScope⟩ := e
  cases m with
  | define name b =>
    by_cases hx : x = name
    · cases inScope <;> simp [scopeDefinition?, hx]
    · cases inScope <;> simp [scopeDefinition?, hx, Ne.symm hx]
  | _ => simp [scopeDefinition?]

end ScopeLog

namespace Scopes

open ScopeLog

variable {s : Scopes}

/-! ## One move -/

theorem historical?_perform {m : ScopeMove} (hc : m.isClear = false) (x : String) :
    (s.perform m).historical? x =
      (scopeDefinition? x ⟨m, 0 < s.depth⟩).or (s.historical? x) := by
  cases m with
  | define name b =>
    cases hs : s.stack with
    | nil =>
      have hd : decide (0 < s.depth) = false := by simp [depth, hs]
      simp only [perform, define, hs, scopeDefinition?, hd]
      rfl
    | cons scope outer =>
      have hd : decide (0 < s.depth) = true := by simp [depth, hs]
      simp only [perform, define, hs, scopeDefinition?, hd]
      exact get?_set_or s.history name b x
  | clear => cases hc
  | _ => rfl

theorem Remembered.perform (h : s.Remembered) (m : ScopeMove) : (s.perform m).Remembered := by
  cases m with
  | push kind name => exact h.push kind name
  | pop => exact fun scope hm => h scope (List.mem_of_mem_tail hm)
  | define name b => exact h.define
  | defineGlobal name b => exact h.defineGlobal
  | popAll => exact fun _ hm => absurd hm List.not_mem_nil
  | clear => exact remembered_empty

/-! ## Any moves -/

theorem Remembered.after (h : s.Remembered) (ms : List ScopeMove) : (s.after ms).Remembered := by
  induction ms generalizing s with
  | nil => exact h
  | cons m ms ih => exact ih (h.perform m)

/-- After any moves the history tells the last definition of a name that was made with a scope open
since all was last cleared, and whether there was one; a name that is visible in a scope is in it. -/
theorem history_eq_log (ms : List ScopeMove) (x : String) :
    let s := empty.after ms
    let log := sinceClear (ofMoves 0 ms)
    s.historical? x = last (scopeDefinition? x) log ∧
      (s.wasScopeBound x = true ↔ ∃ e ∈ log, e.inScope = true ∧ ∃ b, e.move = .define x b) ∧
      (s.isInScope x = true → s.wasScopeBound x = true) := by
  intro s log
  obtain ⟨ms', hc, hlog, hs⟩ := exists_sinceClear ms
  have hhist : s.historical? x = last (scopeDefinition? x) log := by
    rw [show s = empty.after ms' from hs, show log = ofMoves empty.depth ms' from hlog]
    have h := after_eq_last (fun s => s.historical? x)
      (fun _ _ hm => historical?_perform hm x) hc empty
    exact h.trans Option.or_none
  refine ⟨hhist, ?_, fun hx => ?_⟩
  · change (s.historical? x).isSome = true ↔ _
    rw [hhist, isSome_last_iff]
    simp only [isSome_scopeDefinition?_iff]
  · obtain ⟨scope, hm, hb⟩ := List.any_eq_true.1 hx
    exact remembered_empty.after ms scope hm x hb

end Scopes

end Stencil
