import Stencil.Document

/-!
# Reports

A diagnostic tells one thing that is wrong with one reference, under a code that is stable. A
report holds all diagnostics of a template in the order in which they were made, and any of them
rejects the template.
-/

namespace Stencil

inductive Code
  | unknownVariable
  | unknownField
  | custom (text : String)
deriving DecidableEq

namespace Code

/-- The short form for reports. -/
def text : Code → String
  | unknownVariable => "E001"
  | unknownField => "E002"
  | custom text => text

def toDocument : Code → Document
  | unknownVariable => .str "UnknownGlobalVariable"
  | unknownField => .str "UnknownField"
  | custom text => .object [("Custom", .str text)]

def ofDocument? (d : Document) : Option Code :=
  match d.choice? with
  | some ("UnknownGlobalVariable", content) =>
    if Document.isVoid content then some unknownVariable else none
  | some ("UnknownField", content) => if Document.isVoid content then some unknownField else none
  | some ("Custom", some (.str text)) => some (custom text)
  | _ => none

theorem ofDocument?_toDocument (c : Code) : ofDocument? c.toDocument = some c := by
  cases c <;> rfl

end Code

structure Diagnostic where
  code : Code
  message : String
  /-- What the diagnostic is about. -/
  expression : Option String
  /-- Where that was used. -/
  source : Option String
  /-- The rule that found it. -/
  rule : Option String
  suggestions : List String
deriving DecidableEq

namespace Diagnostic

def textOrNull : Option String → Document
  | some s => .str s
  | none => .null

def toDocument (d : Diagnostic) : Document :=
  .object [("code", d.code.toDocument), ("message", .str d.message),
    ("expression", textOrNull d.expression), ("source", textOrNull d.source),
    ("validator", textOrNull d.rule), ("suggestions", .list (d.suggestions.map .str))]

def fieldNames : List String :=
  ["code", "message", "expression", "source", "validator", "suggestions"]

def ofDocument? (d : Document) : Option Diagnostic := do
  match ← d.record? fieldNames with
  | [code, message, expression, source, rule, suggestions] =>
    return {
      code := ← code.bind Code.ofDocument?
      message := ← message.bind Document.str?
      expression := ← Document.optionalStr? expression
      source := ← Document.optionalStr? source
      rule := ← Document.optionalStr? rule
      suggestions := ← suggestions.bind Document.strs? }
  | _ => none

end Diagnostic

structure Report where
  diagnostics : List Diagnostic
deriving DecidableEq

namespace Report

def empty : Report := ⟨[]⟩

def add (r : Report) (ds : List Diagnostic) : Report := ⟨r.diagnostics ++ ds⟩

def messages (r : Report) : List String := r.diagnostics.map (·.message)

def withCode (r : Report) (c : Code) : List Diagnostic := r.diagnostics.filter (·.code = c)

/-- The messages with their numbers, from `n` on. -/
def lines : Nat → List Diagnostic → String
  | _, [] => ""
  | n, d :: ds => "  " ++ toString n ++ ". " ++ d.message ++ "\n" ++ lines (n + 1) ds

def text (r : Report) : String := "Template validation failed:\n" ++ lines 1 r.diagnostics

def ofDocument? (d : Document) : Option Report := do
  match ← d.record? ["diagnostics"] with
  | [some (.list ds)] => return ⟨← ds.mapM Diagnostic.ofDocument?⟩
  | _ => none

end Report

end Stencil
