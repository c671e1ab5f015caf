import Stencil.Binding.Reference
import Stencil.Check.Report

/-!
# Rules

A rule looks at one reference. It may skip it, find nothing wrong, leave the question to later
rules, or object with a message; and it may claim the reference, so that no later rule sees it.
To skip and to check, a rule may ask the catalog, which discovers what it is asked for.
-/

namespace Stencil

inductive Finding
  | ok
  /-- Nothing to say; later rules decide. -/
  | deferred
  | invalid (message : String)
deriving DecidableEq

structure Verdict where
  finding : Finding
  /-- No later rule sees the reference. -/
  claims : Bool
  suggestions : List String
deriving DecidableEq

namespace Verdict

def ok : Verdict := ⟨.ok, false, []⟩

def deferred : Verdict := ⟨.deferred, false, []⟩

def invalid (message : String) : Verdict := ⟨.invalid message, false, []⟩

def claiming (v : Verdict) : Verdict := { v with claims := true }

def withSuggestions (v : Verdict) (ss : List String) : Verdict := { v with suggestions := ss }

def isValid (v : Verdict) : Bool := v.finding == .ok

def message? (v : Verdict) : Option String :=
  match v.finding with
  | .invalid m => some m
  | _ => none

end Verdict

/-- What rules may look at beside the catalog. -/
structure Context where
  graph : Graph
  scopes : Scopes
  globals : GlobalSource
  /-- Fields of globals are checked too. -/
  checkGlobalFields : Bool
  maxSuggestions : Nat

structure Rule where
  name : String
  code : Code
  skips : Reference → Context → Catalog → Bool × Catalog
  check : Reference → Context → Catalog → Verdict × Catalog

namespace Rule

/-- The type of an imported namespace, whose members are not known. -/
def namespaceType : String := "namespace"

/-- Variables that no scope ever bound are globals. -/
def globalExistence : Rule where
  name := "global-existence"
  code := .unknownVariable
  skips r ctx c := (r.settled || ctx.scopes.wasScopeBound r.root, c)
  check r ctx c :=
    (if ctx.globals.contains r.root || ctx.scopes.isGlobal r.root then .ok
      else .invalid ("Variable '" ++ r.expression ++ "' referenced at " ++ r.source
        ++ " is not defined"),
     c)

/-- Confirms variables that a scope bound, and leaves the others to later rules. -/
def scopeLegitimacy : Rule where
  name := "scope-legitimacy"
  code := .custom "scope-legitimacy"
  skips r ctx c := (ctx.scopes.isGlobal r.root, c)
  check r ctx c :=
    (if ctx.scopes.wasScopeBound r.root || ctx.scopes.isScopeVariable r.root then .ok
      else .deferred,
     c)

def checksKind (kind : BindingKind) (ctx : Context) : Bool :=
  match kind with
  | .localVariable | .scopeItem => true
  | .global => ctx.checkGlobalFields
  | .undefined => false

/-- The types whose fields can be checked. The keys of a map are no fields. -/
def isConcrete (typeName : String) : Bool :=
  !typeName.isEmpty && typeName != objectType && typeName != undefinedType
    && typeName != namespaceType && !"Map<".toList.isPrefixOf typeName.toList

def unknownFieldMessage (path : String) (r : Reference) (suggestions : List String) : String :=
  "Field '" ++ path ++ "' may not exist on type '" ++ r.typeName ++ "' for variable '"
    ++ r.expression ++ "'"
    ++ if suggestions.isEmpty then "" else
      " (did you mean: " ++ ", ".intercalate suggestions ++ "?)"

/-- The fields of a path exist on the type of its variable. -/
def field : Rule where
  name := "field"
  code := .unknownField
  skips r ctx c := (!checksKind r.kind ctx || !r.hasFieldAccess || !isConcrete r.typeName, c)
  check r ctx c :=
    match fieldsOf? r.expression with
    | none => (.ok, c)
    | some path =>
      match c.knowsField ctx.graph r.typeName path with
      | (true, c) => (.ok, c)
      | (false, c) =>
        let (found, c) := c.suggestions ctx.graph r.typeName path
        let suggestions := found.take ctx.maxSuggestions
        ((Verdict.invalid (unknownFieldMessage path r suggestions)).withSuggestions suggestions, c)

end Rule

end Stencil
