import Stencil.Proofs.Session.Bodies

/-!
# Depths

How many scopes are open after a script can be told from the script alone. Behind a body the scopes
are closed down to the depth at which its step was taken, but those that the body closed below that
depth are not opened again: the depth is as before exactly if the body leaves it no smaller.
-/

namespace Stencil

mutual

/-- How many scopes are open after a step, when so many were open before it. -/
def Step.depthAfter (n : Nat) : Step → Nat
  | .push _ _ => n + 1
  | .pop => n - 1
  | .list _ _ body | .macroBody _ _ body | .escape _ _ body => min n (depthsAfter (n + 1) body)
  | .reset => 0
  | .reference _ | .expression _ | .assign _ _ | .define _ _ | .defineGlobal _ _
  | .importNamespace _ | .edit _ | .state | .look _ | .references | .validate | .settings => n

def Step.depthsAfter (n : Nat) : List Step → Nat
  | [] => n
  | x :: xs => depthsAfter (x.depthAfter n) xs

end

namespace Session

variable {g : Graph} {s inner : Session} {c : Catalog} {body : List Step}

/-! ## Entering and leaving a body -/

theorem depth_recordAll (s : Session) (texts : List String) :
    (s.recordAll texts).scopes.depth = s.scopes.depth :=
  congrArg Scopes.depth (scopes_recordAll s texts)

theorem depth_defineAll (s : Session) (f : String → Binding) (names : List String) :
    (names.foldl (fun s n => s.define n (f n)) s).scopes.depth = s.scopes.depth :=
  defineAll_keeps (P := (·.depth = s.scopes.depth))
    (fun scopes name b h => (Scopes.depth_define scopes name b).trans h) rfl f names

theorem depth_entered {x : Step} (h : s.entered? x = some (inner, body)) :
    inner.scopes.depth = s.scopes.depth + 1 := by
  cases x with
  | list item list body =>
    cases h
    exact Scopes.depth_define ..
  | macroBody name parameters body =>
    cases h
    exact depth_defineAll (s.push .macroBody name) (fun _ => .marker objectType) parameters
  | escape text name body =>
    cases h
    refine (Scopes.depth_define ..).trans ?_
    exact congrArg (· + 1) (depth_recordAll s (s.mentions text))
  | _ => cases h

theorem step_entered {x : Step} (h : s.entered? x = some (inner, body)) :
    (s.step g c x).2.1 = (inner.run g c body).2.1.unwindTo s.scopes.depth := by
  rw [(entered?_spec h).2.2, (run_spec g inner c body).1]

theorem depthAfter_entered {x : Step} (h : s.entered? x = some (inner, body)) (n : Nat) :
    x.depthAfter n = min n (Step.depthsAfter (n + 1) body) := by
  cases x with
  | list item list body => cases h; simp only [Step.depthAfter]
  | macroBody name parameters body => cases h; simp only [Step.depthAfter]
  | escape text name body => cases h; simp only [Step.depthAfter]
  | _ => cases h

theorem depth_scoped {x : Step} (h : s.entered? x = some (inner, body))
    (hb : (inner.run g c body).2.1.scopes.depth = Step.depthsAfter inner.scopes.depth body) :
    (s.step g c x).2.1.scopes.depth = x.depthAfter s.scopes.depth := by
  rw [depthAfter_entered h, ← depth_entered h, ← hb, step_entered h]
  exact Scopes.depth_unwindTo ..

/-! ## Any script -/

mutual

theorem depth_step (g : Graph) (s : Session) (c : Catalog) : ∀ x : Step,
    (s.step g c x).2.1.scopes.depth = x.depthAfter s.scopes.depth
  | .reference _ | .push _ _ | .defineGlobal _ _ | .state | .look _ | .references | .validate
  | .settings | .reset => rfl
  | .pop => Scopes.depth_pop s.scopes
  | .define name b => Scopes.depth_define s.scopes name b
  | .importNamespace name => Scopes.depth_define s.scopes name _
  | .edit change => congrArg Scopes.depth (scopes_edit s change)
  | .expression text => depth_recordAll s (s.mentions text)
  | .assign _ text => (Scopes.depth_define ..).trans (depth_recordAll s (s.mentions text))
  | .list item list body =>
    depth_scoped (x := .list item list body) rfl (depth_run g (s.enterList item list) c body)
  | .macroBody name parameters body =>
    depth_scoped (x := .macroBody name parameters body) rfl
      (depth_run g (s.enterMacro name parameters) c body)
  | .escape text name body =>
    depth_scoped (x := .escape text name body) rfl (depth_run g (s.enterEscape text name) c body)

theorem depth_run (g : Graph) (s : Session) (c : Catalog) : ∀ xs : List Step,
    (s.run g c xs).2.1.scopes.depth = Step.depthsAfter s.scopes.depth xs
  | [] => rfl
  | x :: xs => by
    have hx := depth_step g s c x
    have hxs := depth_run g (s.step g c x).2.1 (s.step g c x).2.2 xs
    rw [hx] at hxs
    exact hxs

end

/-! ## After a body -/

/-- Behind a loop, a macro or an escape as many scopes are open as its body left open, but no more
than before; the depth is as before exactly if the body leaves at least as many. -/
theorem depth_unwound {x : Step} (h : s.entered? x = some (inner, body)) :
    let after := (s.step g c x).2.1
    after.scopes.depth = min s.scopes.depth (inner.run g c body).2.1.scopes.depth ∧
      (after.scopes.depth = s.scopes.depth ↔
        s.scopes.depth ≤ Step.depthsAfter (s.scopes.depth + 1) body) := by
  intro after
  have hbody : (inner.run g c body).2.1.scopes.depth =
      Step.depthsAfter (s.scopes.depth + 1) body := by
    rw [depth_run, depth_entered h]
  have hafter : after.scopes.depth =
      min s.scopes.depth (Step.depthsAfter (s.scopes.depth + 1) body) := by
    rw [depth_step, depthAfter_entered h]
  refine ⟨hbody ▸ hafter, ?_⟩
  rw [hafter]
  omega

/-- A macro within a scope whose body closes both: the scope from before stays closed. -/
theorem depth_unwound_short :
    let s := (start ⟨[]⟩ (Globals.source .empty) .standard (.build .standard 0)).1.push .unknown
      "page"
    let after := (s.step ⟨[]⟩ (.build .standard 0) (.macroBody "m" [] [.pop, .pop])).2.1
    after.scopes.depth ≠ s.scopes.depth ∧ after.scopes.depth = 0 := by
  intro s after
  obtain ⟨-, hiff⟩ := depth_unwound (g := ⟨[]⟩) (c := .build .standard 0) (s := s)
    (x := .macroBody "m" [] [.pop, .pop]) rfl
  have hlt : ¬ s.scopes.depth ≤ Step.depthsAfter (s.scopes.depth + 1) [.pop, .pop] := by decide
  exact ⟨fun he => hlt (hiff.1 he), by decide⟩

end Session

end Stencil
