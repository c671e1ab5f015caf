import Stencil.Path.Basic
import Stencil.Value.Globals
import Stencil.Scope

/-!
# What a variable is bound to

A variable is an item of a scope, a local variable, a global one, or undefined. Detectors are
asked in order, and the first that answers decides; when none answers the variable is undefined.
-/

namespace Stencil

def undefinedType : String := "undefined"

inductive BindingKind
  /-- Bound by a loop, a macro or an escape around it. -/
  | scopeItem
  /-- Assigned in an open scope. -/
  | localVariable
  /-- Supplied by the caller, or assigned outside all scopes. -/
  | global
  | undefined
deriving DecidableEq

namespace BindingKind

def label : BindingKind → String
  | scopeItem => "scope_item" | localVariable => "local" | global => "global"
  | undefined => "undefined"

def title : BindingKind → String
  | scopeItem => "scope-item" | localVariable => "local" | global => "global"
  | undefined => "undefined"

def all : List BindingKind := [scopeItem, localVariable, global, undefined]

def ofLabel? (s : String) : Option BindingKind := all.find? (·.label = s)

end BindingKind

structure Classification where
  kind : BindingKind
  typeName : String
  /-- The variable exists, and nothing else need be asked about that. -/
  settled : Bool
deriving DecidableEq

def Classification.undefined : Classification := ⟨.undefined, undefinedType, false⟩

/-- Answers for some variables. -/
structure Detector where
  name : String
  classify? : String → Scopes → GlobalSource → Option Classification

namespace Detector

def scopeItem : Detector where
  name := "scope-item"
  classify? root scopes _ :=
    match scopes.scopeValue? root with
    | some (.marker t) => some ⟨.scopeItem, t, true⟩
    | _ => none

def localVariable : Detector where
  name := "local"
  classify? root scopes _ :=
    match scopes.scopeValue? root with
    | some (.value v) => some ⟨.localVariable, v.displayName, false⟩
    | _ => none

/-- The caller's globals come before those that were assigned. -/
def global : Detector where
  name := "global"
  classify? root scopes source :=
    if source.contains root then
      some ⟨.global, ((source.get? root).map (·.displayName)).getD objectType, false⟩
    else (scopes.globalValue? root).map fun b => ⟨.global, b.typeName, false⟩

def undefined : Detector where
  name := "undefined"
  classify? _ _ _ := some .undefined

end Detector

/-- Detectors in the order in which they are asked. -/
structure Classifier where
  detectors : List Detector

namespace Classifier

def standard : Classifier := ⟨[.scopeItem, .localVariable, .global, .undefined]⟩

def empty : Classifier := ⟨[]⟩

def add (c : Classifier) (d : Detector) : Classifier := ⟨c.detectors ++ [d]⟩

/-- Puts a detector before the one at the index, or last. -/
def insert (c : Classifier) (index : Nat) (d : Detector) : Classifier :=
  ⟨c.detectors.take index ++ d :: c.detectors.drop index⟩

def names (c : Classifier) : List String := c.detectors.map (·.name)

/-- Classifies the variable of an expression. -/
def classify (c : Classifier) (expression : String) (scopes : Scopes) (source : GlobalSource) :
    Classification :=
  (c.detectors.findSome? (·.classify? (rootOf expression) scopes source)).getD .undefined

end Classifier

end Stencil
