import Stencil.Session.Basic

/-!
# Scripts

A script is a list of steps of a session, in which loops, macros and escapes hold the steps of
their bodies. A run answers every step. After a body the scopes that it left open are closed.
-/

namespace Stencil

/-- A change of the chain. -/
inductive ChainEdit
  | add (rule : Rule)
  | insert (index : Nat) (rule : Rule)
  | remove (index : Nat)
  | clear

/-- The chain after an edit, with the rule that was taken out. -/
def ChainEdit.apply (k : Chain) : ChainEdit → Except ChainFault (Option Rule × Chain)
  | add rule => .ok (none, k.add rule)
  | insert index rule => (k.insert index rule).map fun k => (none, k)
  | remove index => (k.remove index).map fun (rule, k) => (some rule, k)
  | clear => .ok (none, .empty)

inductive Step
  | reference (text : String)
  | expression (text : String)
  | assign (name text : String)
  | push (kind : ScopeKind) (name : String)
  | pop
  | define (name : String) (binding : Binding)
  | defineGlobal (name : String) (binding : Binding)
  | importNamespace (name : String)
  | list (item list : String) (body : List Step)
  | macroBody (name : String) (parameters : List String) (body : List Step)
  | escape (text name : String) (body : List Step)
  | edit (change : ChainEdit)
  | state
  | look (name : String)
  | references
  | validate
  | settings
  | reset

inductive Answer
  | reference (r : Reference)
  | count (n : Nat)
  | depth (n : Nat)
  | typeName (t : Option String)
  | binding (b : Option Binding)
  /-- The scopes and a type when the body was entered, its answers each with the references that
  its step recorded, and the depth afterwards. -/
  | scoped (entered : Scopes) (type : Option String) (body : List (Answer × List Reference))
      (depth : Nat)
  | edited (result : Except ChainFault (Option Rule)) (chain : Chain)
  | state (s : Scopes)
  | look (visible historical : Option Binding)
  | references (rs : List Reference)
  | outcome (result : Except Failure Unit)
  | settings (s : Settings)
  | reset (isNew : Bool) (references : Nat) (s : Scopes)

namespace Session

/-- The chain after an edit; an edit that fails changes nothing. -/
def edit (s : Session) (change : ChainEdit) : Answer × Session :=
  match change.apply s.chain with
  | .ok (rule, k) => (.edited (.ok rule) k, { s with chain := k })
  | .error fault => (.edited (.error fault) s.chain, s)

/-- The references since there were so many. -/
def recordedSince (s : Session) (n : Nat) : List Reference := s.references.drop n

mutual

/-- One step: its answer, and the session and the catalog after it. -/
def step (g : Graph) (s : Session) (c : Catalog) : Step → Answer × Session × Catalog
  | .reference text => (.reference (s.nextReference text), s.recordReference text, c)
  | .expression text => (.count (s.mentions text).length, s.recordExpression text, c)
  | .assign name text =>
    let s := s.assign name text
    (.binding (s.scopes.value? name), s, c)
  | .push kind name =>
    let s := s.push kind name
    (.depth s.scopes.depth, s, c)
  | .pop => (.depth s.pop.scopes.depth, s.pop, c)
  | .define name b =>
    let s := s.define name b
    (.typeName (s.scopes.typeName? name), s, c)
  | .defineGlobal name b =>
    let s := s.defineGlobal name b
    (.typeName (s.scopes.typeName? name), s, c)
  | .importNamespace name =>
    let s := s.importNamespace name
    (.binding (s.scopes.value? name), s, c)
  | .list item list body =>
    let inner := s.enterList item list
    let (answers, after, c) := run g inner c body
    let after := after.unwindTo s.scopes.depth
    (.scoped inner.scopes (inner.scopes.typeName? item) answers after.scopes.depth, after, c)
  | .macroBody name parameters body =>
    let inner := s.enterMacro name parameters
    let (answers, after, c) := run g inner c body
    let after := after.unwindTo s.scopes.depth
    (.scoped inner.scopes (inner.scopes.typeName? "") answers after.scopes.depth, after, c)
  | .escape text name body =>
    let inner := s.enterEscape text name
    let (answers, after, c) := run g inner c body
    let after := after.unwindTo s.scopes.depth
    (.scoped inner.scopes (inner.scopes.typeName? name) answers after.scopes.depth, after, c)
  | .edit change => ((s.edit change).1, (s.edit change).2, c)
  | .state => (.state s.scopes, s, c)
  | .look name => (.look (s.scopes.value? name) (s.scopes.historical? name), s, c)
  | .references => (.references s.references, s, c)
  | .validate =>
    let (result, c) := s.validate g c
    (.outcome result, s, c)
  | .settings => (.settings s.settings, s, c)
  | .reset =>
    let new := s.reset
    (.reset (new.generation != s.generation) new.references.length new.scopes, new, c)

/-- All steps of a script in order, each answer with the references that its step recorded. -/
def run (g : Graph) (s : Session) (c : Catalog) :
    List Step → List (Answer × List Reference) × Session × Catalog
  | [] => ([], s, c)
  | x :: xs =>
    let (answer, s', c) := step g s c x
    let (answers, s'', c) := run g s' c xs
    ((answer, s'.recordedSince s.references.length) :: answers, s'', c)

end

end Session

end Stencil
