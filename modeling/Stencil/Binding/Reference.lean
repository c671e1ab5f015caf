import Stencil.Binding.Classification

/-!
# References

A reference is one use of a variable, with what the variable was bound to at that time.
-/

namespace Stencil

structure Reference where
  /-- The path as it was written. -/
  expression : String
  kind : BindingKind
  typeName : String
  /-- Where it was used. -/
  source : String
  /-- The variable exists, and nothing else need be asked about that. -/
  settled : Bool
deriving DecidableEq

namespace Reference

def ofClassification (expression : String) (c : Classification) (source : String) : Reference :=
  ⟨expression, c.kind, c.typeName, source, c.settled⟩

def root (r : Reference) : String := rootOf r.expression

def hasFieldAccess (r : Reference) : Bool := (fieldsOf? r.expression).isSome

end Reference

end Stencil
