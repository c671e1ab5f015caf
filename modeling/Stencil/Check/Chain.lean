import Stencil.Check.Rule

/-!
# Chains of rules

A chain asks its rules in order until one claims the reference. A rule can be put in or taken out
at an index; an index out of bounds changes nothing.
-/

namespace Stencil

inductive ChainFault
  | outOfBounds (index length : Nat)
deriving DecidableEq

def ChainFault.message : ChainFault → String
  | outOfBounds index length =>
    "index " ++ toString index ++ " out of bounds for chain of " ++ toString length ++ " validators"

structure Chain where
  rules : List Rule

namespace Chain

def empty : Chain := ⟨[]⟩

def standard : Chain := ⟨[.globalExistence, .scopeLegitimacy, .field]⟩

def length (k : Chain) : Nat := k.rules.length

def names (k : Chain) : List String := k.rules.map (·.name)

def add (k : Chain) (r : Rule) : Chain := ⟨k.rules ++ [r]⟩

/-- Puts a rule before the one at the index, or at the end. -/
def insert (k : Chain) (index : Nat) (r : Rule) : Except ChainFault Chain :=
  if index ≤ k.length then .ok ⟨k.rules.take index ++ r :: k.rules.drop index⟩
  else .error (.outOfBounds index k.length)

/-- Takes out the rule at the index. -/
def remove (k : Chain) (index : Nat) : Except ChainFault (Rule × Chain) :=
  match k.rules[index]? with
  | some r => .ok (r, ⟨k.rules.eraseIdx index⟩)
  | none => .error (.outOfBounds index k.length)

/-- What a rule's verdict adds to the report. -/
def diagnostics (rule : Rule) (r : Reference) (v : Verdict) : List Diagnostic :=
  match v.message? with
  | some m => [⟨rule.code, m, some r.expression, some r.source, some rule.name, v.suggestions⟩]
  | none => []

/-- What the rules say about a reference, in their order. -/
def evaluateRules (r : Reference) (ctx : Context) : List Rule → Catalog → List Diagnostic × Catalog
  | [], c => ([], c)
  | rule :: rules, c =>
    let (skip, c) := rule.skips r ctx c
    if skip then evaluateRules r ctx rules c
    else
      let (v, c) := rule.check r ctx c
      if v.claims then (diagnostics rule r v, c)
      else
        let (ds, c) := evaluateRules r ctx rules c
        (diagnostics rule r v ++ ds, c)

def evaluate (k : Chain) (r : Reference) (ctx : Context) (c : Catalog) :
    List Diagnostic × Catalog :=
  evaluateRules r ctx k.rules c

/-- What the rules say about all references, in their order. -/
def evaluateAll (k : Chain) (ctx : Context) : List Reference → Catalog → List Diagnostic × Catalog
  | [], c => ([], c)
  | r :: rs, c =>
    let (ds, c) := k.evaluate r ctx c
    let (more, c) := evaluateAll k ctx rs c
    (ds ++ more, c)

end Chain

/-- What can go wrong with a template, or with what it is checked by. -/
inductive Failure
  | rejected (report : Report)
  | catalog (fault : CatalogFault)
  | chain (fault : ChainFault)
deriving DecidableEq

namespace Failure

def text : Failure → String
  | rejected report => report.text
  | catalog fault => "Registry error: " ++ fault.message
  | chain fault => "Validator chain error: " ++ fault.message

def report? : Failure → Option Report
  | rejected report => some report
  | _ => none

end Failure

end Stencil
