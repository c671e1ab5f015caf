import Stencil.Table
import Stencil.Value.Basic

/-!
# Scopes

Open scopes lie above the globals, the innermost first, and a name is looked up from there
outwards. Closing a scope hides its bindings, but the history remembers that a name was bound in a
scope, and how it was bound last.
-/

namespace Stencil

inductive ScopeKind
  /-- The body of a loop; binds the item. -/
  | listItem
  /-- The body of a macro; binds the parameters. -/
  | macroBody
  /-- A block in which an expression is escaped; binds it. -/
  | escape
  | unknown
deriving DecidableEq

namespace ScopeKind

def label : ScopeKind → String
  | listItem => "list_item" | macroBody => "macro" | escape => "escape" | unknown => "unknown"

def title : ScopeKind → String
  | listItem => "list-item" | macroBody => "macro" | escape => "escape" | unknown => "unknown"

def all : List ScopeKind := [listItem, macroBody, escape, unknown]

def ofLabel? (s : String) : Option ScopeKind := all.find? (·.label = s)

end ScopeKind

/-- What a name is bound to: a value, or a marker where only the type is known. -/
inductive Binding
  | value (v : Value)
  | marker (typeName : String)

namespace Binding

def isMarker : Binding → Bool
  | marker _ => true
  | value _ => false

def typeName : Binding → String
  | marker t => t
  | value v => v.displayName

end Binding

structure Scope where
  kind : ScopeKind
  name : String
  bindings : Table Binding

/-- The open scopes, the innermost first, with the globals and the history of scope bindings. -/
structure Scopes where
  stack : List Scope
  globals : Table Binding
  history : Table Binding

namespace Scopes

def empty : Scopes := ⟨[], .empty, .empty⟩

def depth (s : Scopes) : Nat := s.stack.length

def push (s : Scopes) (kind : ScopeKind) (name : String) : Scopes :=
  { s with stack := ⟨kind, name, .empty⟩ :: s.stack }

/-- Closes the innermost scope, if one is open. -/
def pop (s : Scopes) : Scopes := { s with stack := s.stack.tail }

def current? (s : Scopes) : Option Scope := s.stack.head?

def defineGlobal (s : Scopes) (name : String) (b : Binding) : Scopes :=
  { s with globals := s.globals.set name b }

/-- Binds a name in the innermost scope, or globally when none is open. -/
def define (s : Scopes) (name : String) (b : Binding) : Scopes :=
  match s.stack with
  | [] => s.defineGlobal name b
  | scope :: outer =>
    { s with
      stack := { scope with bindings := scope.bindings.set name b } :: outer
      history := s.history.set name b }

/-- The binding in the innermost scope that has one. -/
def scopeValue? (s : Scopes) (name : String) : Option Binding :=
  s.stack.findSome? (·.bindings.get? name)

def globalValue? (s : Scopes) (name : String) : Option Binding := s.globals.get? name

/-- The visible binding. -/
def value? (s : Scopes) (name : String) : Option Binding :=
  (s.scopeValue? name).or (s.globalValue? name)

def historical? (s : Scopes) (name : String) : Option Binding := s.history.get? name

def isInScope (s : Scopes) (name : String) : Bool := s.stack.any (·.bindings.contains name)

def isGlobal (s : Scopes) (name : String) : Bool := s.globals.contains name

/-- The visible binding is a marker. -/
def isScopeVariable (s : Scopes) (name : String) : Bool := (s.value? name).any (·.isMarker)

def wasScopeBound (s : Scopes) (name : String) : Bool := s.history.contains name

def typeName? (s : Scopes) (name : String) : Option String := (s.value? name).map (·.typeName)

/-- Closes all scopes. -/
def popAll (s : Scopes) : Scopes := { s with stack := [] }

/-- Closes scopes until no more than so many are open. -/
def unwindTo (s : Scopes) (depth : Nat) : Scopes :=
  { s with stack := s.stack.drop (s.stack.length - depth) }

@[simp] theorem depth_empty : empty.depth = 0 := rfl

@[simp] theorem depth_push (s : Scopes) (k : ScopeKind) (n : String) :
    (s.push k n).depth = s.depth + 1 := rfl

@[simp] theorem depth_pop (s : Scopes) : s.pop.depth = s.depth - 1 := by simp [depth, pop]

@[simp] theorem depth_define (s : Scopes) (n : String) (b : Binding) :
    (s.define n b).depth = s.depth := by
  unfold define
  split <;> simp_all [depth, defineGlobal]

@[simp] theorem depth_unwindTo (s : Scopes) (d : Nat) : (s.unwindTo d).depth = min d s.depth := by
  simp [depth, unwindTo]; omega

end Scopes

end Stencil
