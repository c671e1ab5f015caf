import Stencil.Session.Script
import Stencil.Proofs.Check.Repeating

/-!
# Moves

A script comes down to moves: a session records a reference, opens or closes scopes, binds a name,
edits its chain, checks, or is reset. Every state that a script goes through, within bodies too, is
the state after some first moves of the script.
-/

namespace Stencil

inductive Move
  | record (text : String)
  | push (kind : ScopeKind) (name : String)
  /-- Closes scopes until no more than so many are open. -/
  | close (depth : Nat)
  | define (name : String) (b : Binding)
  | defineGlobal (name : String) (b : Binding)
  | edit (change : ChainEdit)
  | check
  | reset

namespace Session

def perform (s : Session) : Move → Session
  | .record text => s.recordReference text
  | .push kind name => s.push kind name
  | .close depth => s.unwindTo depth
  | .define name b => s.define name b
  | .defineGlobal name b => s.defineGlobal name b
  | .edit change => (s.edit change).2
  | .check => s
  | .reset => s.reset

def after (s : Session) (ms : List Move) : Session := ms.foldl perform s

/-- The catalog after a move; only a check asks it. -/
def asked (g : Graph) (s : Session) (c : Catalog) : Move → Catalog
  | .check => (s.validate g c).2
  | _ => c

def catalogAfter (g : Graph) : Session → Catalog → List Move → Catalog
  | _, c, [] => c
  | s, c, m :: ms => catalogAfter g (s.perform m) (s.asked g c m) ms

/-- What the checks among the moves find. -/
def outcomes (g : Graph) : Session → Catalog → List Move → List (Except Failure Unit)
  | _, _, [] => []
  | s, c, .check :: ms => (s.validate g c).1 :: outcomes g s (s.validate g c).2 ms
  | s, c, m :: ms => outcomes g (s.perform m) c ms

/-! ## The moves of a script -/

def listMoves (s : Session) (item list : String) : List Move :=
  [.record list, .push .listItem list,
    .define item (.marker (Naming.itemType list (s.nextReference list).typeName))]

def macroMoves (name : String) (parameters : List String) : List Move :=
  .push .macroBody name :: parameters.map (.define · (.marker objectType))

def escapeMoves (s : Session) (text name : String) : List Move :=
  (s.mentions text).map .record ++ [.push .escape text, .define name (.marker objectType)]

mutual

def stepMoves (s : Session) : Step → List Move
  | .reference text => [.record text]
  | .expression text => (s.mentions text).map .record
  | .assign name text =>
    (s.mentions text).map .record ++ [.define name (.value (s.reader.read text).value)]
  | .push kind name => [.push kind name]
  | .pop => [.close (s.scopes.depth - 1)]
  | .define name b => [.define name b]
  | .defineGlobal name b => [.defineGlobal name b]
  | .importNamespace name => [.define name (.marker Rule.namespaceType)]
  | .list item list body =>
    s.listMoves item list ++ moves (s.enterList item list) body ++ [.close s.scopes.depth]
  | .macroBody name parameters body =>
    macroMoves name parameters ++ moves (s.enterMacro name parameters) body ++
      [.close s.scopes.depth]
  | .escape text name body =>
    s.escapeMoves text name ++ moves (s.enterEscape text name) body ++ [.close s.scopes.depth]
  | .edit change => [.edit change]
  | .validate => [.check]
  | .reset => [.reset]
  | .state | .look _ | .references | .settings => []

def moves (s : Session) : List Step → List Move
  | [] => []
  | x :: xs => stepMoves s x ++ moves (s.after (stepMoves s x)) xs

end

/-! ## Moves one after the other -/

variable {g : Graph} {s : Session} {c : Catalog}

@[simp] theorem after_nil : s.after [] = s := rfl

@[simp] theorem after_cons (m : Move) (ms : List Move) :
    s.after (m :: ms) = (s.perform m).after ms := rfl

theorem after_append (ms ms' : List Move) : s.after (ms ++ ms') = (s.after ms).after ms' :=
  List.foldl_append

theorem catalogAfter_append (ms ms' : List Move) :
    s.catalogAfter g c (ms ++ ms') = (s.after ms).catalogAfter g (s.catalogAfter g c ms) ms' := by
  induction ms generalizing s c with
  | nil => rfl
  | cons m ms ih => exact ih

theorem outcomes_append (ms ms' : List Move) :
    s.outcomes g c (ms ++ ms') =
      s.outcomes g c ms ++ (s.after ms).outcomes g (s.catalogAfter g c ms) ms' := by
  induction ms generalizing s c with
  | nil => rfl
  | cons m ms ih => cases m <;> simp only [List.cons_append, outcomes, ih] <;> rfl

/-! ## What moves leave alone -/

theorem chain_perform {m : Move} (h : ∀ e, m ≠ .edit e) : (s.perform m).chain = s.chain := by
  cases m with
  | edit e => exact absurd rfl (h e)
  | _ => rfl

theorem chain_after {ms : List Move} (h : ∀ e, .edit e ∉ ms) : (s.after ms).chain = s.chain := by
  induction ms generalizing s with
  | nil => rfl
  | cons m ms ih =>
    have hm : ∀ e, m ≠ .edit e := fun e he => h e (he ▸ List.mem_cons_self)
    have hms : ∀ e, .edit e ∉ ms := fun e he => h e (List.mem_cons_of_mem _ he)
    exact (ih hms).trans (chain_perform hm)

theorem scopes_edit (s : Session) (e : ChainEdit) : (s.edit e).2.scopes = s.scopes := by
  unfold edit
  split <;> rfl

theorem references_edit (s : Session) (e : ChainEdit) : (s.edit e).2.references = s.references := by
  unfold edit
  split <;> rfl

theorem perform_keeps (m : Move) :
    (s.perform m).settings = s.settings ∧ (s.perform m).globals = s.globals ∧
      (s.perform m).classifier = s.classifier ∧ (s.perform m).reader = s.reader := by
  cases m with
  | edit e =>
    rw [perform, edit]
    split <;> exact ⟨rfl, rfl, rfl, rfl⟩
  | _ => exact ⟨rfl, rfl, rfl, rfl⟩

theorem after_keeps (ms : List Move) :
    (s.after ms).settings = s.settings ∧ (s.after ms).globals = s.globals ∧
      (s.after ms).classifier = s.classifier ∧ (s.after ms).reader = s.reader := by
  induction ms generalizing s with
  | nil => exact ⟨rfl, rfl, rfl, rfl⟩
  | cons m ms ih =>
    obtain ⟨h₁, h₂, h₃, h₄⟩ := perform_keeps (s := s) m
    obtain ⟨h₁', h₂', h₃', h₄'⟩ := ih (s := s.perform m)
    exact ⟨h₁'.trans h₁, h₂'.trans h₂, h₃'.trans h₃, h₄'.trans h₄⟩

/-! ## Checks by the standard rules -/

section
variable {P : Catalog → Prop}
  (hP : ∀ ctx r c, ctx.graph = g → P c → P (Chain.standard.evaluate r ctx c).2)
include hP

theorem asked_of_standard (hk : s.chain = .standard) (h : P c) (m : Move) : P (s.asked g c m) := by
  cases m with
  | check =>
    show P (s.chain.evaluateAll (s.context g) s.references c).2
    rw [hk]
    exact Chain.evaluateAll_snd (fun r c => hP (s.context g) r c rfl) h s.references
  | _ => exact h

theorem catalogAfter_of_standard (hk : s.chain = .standard) (h : P c) {ms : List Move}
    (he : ∀ e, .edit e ∉ ms) : P (s.catalogAfter g c ms) := by
  induction ms generalizing s c with
  | nil => exact h
  | cons m ms ih =>
    have hm : ∀ e, m ≠ .edit e := fun e h' => he e (h' ▸ List.mem_cons_self)
    have hms : ∀ e, .edit e ∉ ms := fun e h' => he e (List.mem_cons_of_mem _ h')
    exact ih ((chain_perform hm).trans hk) (asked_of_standard hP hk h m) hms

end

theorem checked_catalogAfter (hk : s.chain = .standard) (c : Catalog) {ms : List Move}
    (he : ∀ e, .edit e ∉ ms) : Catalog.Checked g c (s.catalogAfter g c ms) :=
  catalogAfter_of_standard (fun _ r _ hg h => h.check r hg) hk .refl he

/-! ## Moves without checks -/

theorem after_records (texts : List String) : s.after (texts.map .record) = s.recordAll texts := by
  induction texts generalizing s with
  | nil => rfl
  | cons text texts ih => exact ih

theorem scopes_recordAll (s : Session) (texts : List String) :
    (s.recordAll texts).scopes = s.scopes := by
  induction texts generalizing s with
  | nil => rfl
  | cons text texts ih => exact ih (s.recordReference text)

theorem spec_of_no_check {ms : List Move} (h : .check ∉ ms) :
    s.catalogAfter g c ms = c ∧ s.outcomes g c ms = [] := by
  induction ms generalizing s with
  | nil => exact ⟨rfl, rfl⟩
  | cons m ms ih =>
    have hms : .check ∉ ms := fun h' => h (List.mem_cons_of_mem _ h')
    cases m with
    | check => exact absurd List.mem_cons_self h
    | _ => exact ih hms

theorem no_check_records (texts : List String) : Move.check ∉ texts.map .record := fun h => by
  obtain ⟨_, -, h⟩ := List.mem_map.1 h
  cases h

theorem pop_eq_unwindTo (s : Session) : s.pop = s.unwindTo (s.scopes.depth - 1) := by
  have h : s.scopes.stack.length - (s.scopes.stack.length - 1) = min 1 s.scopes.stack.length := by
    omega
  unfold pop unwindTo Scopes.pop Scopes.unwindTo Scopes.depth
  rw [h]
  cases s.scopes.stack with
  | nil => rfl
  | cons _ _ => simp

/-! ## A run goes through its moves -/

theorem after_macroMoves (name : String) (parameters : List String) :
    s.after (macroMoves name parameters) = s.enterMacro name parameters := by
  rw [macroMoves, after_cons, after, List.foldl_map]
  rfl

theorem no_check_macroMoves (name : String) (parameters : List String) :
    Move.check ∉ macroMoves name parameters := fun h => by
  rcases List.mem_cons.1 h with h | h
  · cases h
  · obtain ⟨_, -, h⟩ := List.mem_map.1 h
    cases h

theorem after_escapeMoves (text name : String) :
    s.after (s.escapeMoves text name) = s.enterEscape text name := by
  rw [escapeMoves, after_append, after_records]
  rfl

theorem no_check_escapeMoves (text name : String) : Move.check ∉ s.escapeMoves text name := by
  simp [escapeMoves]

/-- A body between the moves that open its scope and the one that closes what is open. -/
theorem spec_scoped {opening : List Move} (h : .check ∉ opening) {inner : Session}
    (ho : s.after opening = inner) (body : List Move) (depth : Nat) :
    s.after (opening ++ body ++ [.close depth]) = (inner.after body).unwindTo depth ∧
      s.catalogAfter g c (opening ++ body ++ [.close depth]) = inner.catalogAfter g c body ∧
      s.outcomes g c (opening ++ body ++ [.close depth]) = inner.outcomes g c body := by
  obtain ⟨hc, hn⟩ := spec_of_no_check (g := g) (s := s) (c := c) h
  rw [List.append_assoc]
  refine ⟨?_, ?_, ?_⟩
  · rw [after_append, ho, after_append]
    rfl
  · rw [catalogAfter_append, ho, hc, catalogAfter_append]
    rfl
  · rw [outcomes_append, ho, hc, hn, outcomes_append]
    exact List.append_nil _

end Session

mutual

/-- What the checks gave that a step answered, those in its body included. -/
def Answer.outcomes : Answer → List (Except Failure Unit)
  | .outcome result => [result]
  | .scoped _ _ body _ => outcomesAll body
  | _ => []

def Answer.outcomesAll : List (Answer × List Reference) → List (Except Failure Unit)
  | [] => []
  | (a, _) :: rest => a.outcomes ++ outcomesAll rest

end

namespace Session

theorem outcomes_edit (s : Session) (change : ChainEdit) : (s.edit change).1.outcomes = [] := by
  unfold edit
  split <;> rfl

mutual

/-- A step leaves what its moves leave, and its answer tells what their checks find. -/
theorem step_spec (g : Graph) (s : Session) (c : Catalog) : ∀ x : Step,
    (s.step g c x).2 = (s.after (s.stepMoves x), s.catalogAfter g c (s.stepMoves x)) ∧
      (s.step g c x).1.outcomes = s.outcomes g c (s.stepMoves x)
  | .reference _ | .push _ _ | .define _ _ | .defineGlobal _ _ | .importNamespace _
  | .validate | .reset | .state | .look _ | .references | .settings => ⟨rfl, rfl⟩
  | .edit change => ⟨rfl, outcomes_edit s change⟩
  | .expression text => by
    obtain ⟨hc, ho⟩ := spec_of_no_check (g := g) (s := s) (c := c) (no_check_records (s.mentions text))
    rw [stepMoves, after_records, hc, ho]
    exact ⟨rfl, rfl⟩
  | .assign name text => by
    obtain ⟨hc, ho⟩ := spec_of_no_check (g := g) (s := s) (c := c) (no_check_records (s.mentions text))
    rw [stepMoves, after_append, catalogAfter_append, outcomes_append, after_records, hc, ho]
    exact ⟨rfl, rfl⟩
  | .pop => by
    rw [stepMoves, after_cons, perform, ← pop_eq_unwindTo]
    exact ⟨rfl, rfl⟩
  | .list item list body => by
    -- The body runs from where the opening moves lead, and what it leaves open is closed behind it.
    obtain ⟨hr, ho⟩ := run_spec g (s.enterList item list) c body
    have h : Move.check ∉ s.listMoves item list := by simp [listMoves]
    have he : s.after (s.listMoves item list) = s.enterList item list := rfl
    obtain ⟨h₁, h₂, h₃⟩ := spec_scoped (g := g) (c := c) h he ((s.enterList item list).moves body)
      s.scopes.depth
    rw [stepMoves, h₁, h₂, h₃, ← ho, step]
    refine ⟨?_, rfl⟩
    simp only [hr]
  | .macroBody name parameters body => by
    obtain ⟨hr, ho⟩ := run_spec g (s.enterMacro name parameters) c body
    obtain ⟨h₁, h₂, h₃⟩ := spec_scoped (g := g) (c := c) (no_check_macroMoves name parameters)
      (after_macroMoves (s := s) name parameters) ((s.enterMacro name parameters).moves body)
      s.scopes.depth
    rw [stepMoves, h₁, h₂, h₃, ← ho, step]
    refine ⟨?_, rfl⟩
    simp only [hr]
  | .escape text name body => by
    obtain ⟨hr, ho⟩ := run_spec g (s.enterEscape text name) c body
    obtain ⟨h₁, h₂, h₃⟩ := spec_scoped (g := g) (c := c) (no_check_escapeMoves text name)
      (after_escapeMoves (s := s) text name) ((s.enterEscape text name).moves body) s.scopes.depth
    rw [stepMoves, h₁, h₂, h₃, ← ho, step]
    refine ⟨?_, rfl⟩
    simp only [hr]

theorem run_spec (g : Graph) (s : Session) (c : Catalog) : ∀ xs : List Step,
    (s.run g c xs).2 = (s.after (s.moves xs), s.catalogAfter g c (s.moves xs)) ∧
      Answer.outcomesAll (s.run g c xs).1 = s.outcomes g c (s.moves xs)
  | [] => ⟨rfl, rfl⟩
  | x :: xs => by
    obtain ⟨hx, hox⟩ := step_spec g s c x
    obtain ⟨hr, ho⟩ := run_spec g (s.after (s.stepMoves x)) (s.catalogAfter g c (s.stepMoves x)) xs
    rw [moves, after_append, catalogAfter_append, outcomes_append, ← hr, ← ho, ← hox, run]
    refine ⟨?_, ?_⟩
    · simp only [hx]
    · simp only [hx, Answer.outcomesAll]

end

end Session

end Stencil
