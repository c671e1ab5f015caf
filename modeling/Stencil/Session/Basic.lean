import Stencil.Naming.Item
import Stencil.Check.Chain
import Stencil.Settings.Basic

/-!
# Sessions

A session accompanies the building of one template. It keeps the scopes and the references that
were recorded, each classified by what was bound at that time; at the end all references are
checked. The catalog of shapes is not part of a session, and many sessions may use one.
-/

namespace Stencil

structure Session where
  /-- Another one after each reset. -/
  generation : Nat
  settings : Settings
  globals : GlobalSource
  scopes : Scopes
  references : List Reference
  /-- The number of the last reference. -/
  counter : Nat
  classifier : Classifier
  chain : Chain
  reader : Reader

namespace Expr

/-- The value of a literal; of anything else the value is not known. -/
def value : Expr → Value
  | literal (.int v) => .int v
  | literal (.long v) => .long v
  | literal (.float v) => .float v
  | literal (.str v) => .str v
  | literal (.bool v) => .bool v
  | _ => .null

end Expr

namespace Session

/-- A new session, and the catalog after the types of the globals were registered. -/
def start (g : Graph) (globals : GlobalSource) (settings : Settings) (c : Catalog) :
    Session × Catalog :=
  ({ generation := 0
     settings
     globals
     scopes := .empty
     references := []
     counter := 0
     classifier := .standard
     chain := .standard
     reader := settings.reader.reader },
   if settings.registersTypes then (c.registerGlobals g globals).2 else c)

/-! ## Scopes and bindings -/

def push (s : Session) (kind : ScopeKind) (name : String) : Session :=
  { s with scopes := s.scopes.push kind name }

def pop (s : Session) : Session := { s with scopes := s.scopes.pop }

def define (s : Session) (name : String) (b : Binding) : Session :=
  { s with scopes := s.scopes.define name b }

def defineGlobal (s : Session) (name : String) (b : Binding) : Session :=
  { s with scopes := s.scopes.defineGlobal name b }

/-- Binds a name to an imported namespace, whose members are not checked. -/
def importNamespace (s : Session) (name : String) : Session :=
  s.define name (.marker Rule.namespaceType)

/-- Closes the scopes that were opened since so many were open. -/
def unwindTo (s : Session) (depth : Nat) : Session :=
  { s with scopes := s.scopes.unwindTo depth }

/-! ## References -/

/-- The reference that recording this expression makes now. -/
def nextReference (s : Session) (expression : String) : Reference :=
  let expression := Text.trimmed expression
  .ofClassification expression (s.classifier.classify expression s.scopes s.globals)
    (s.settings.sourceLabel ++ ":ref:" ++ toString (s.counter + 1))

def recordReference (s : Session) (expression : String) : Session :=
  { s with references := s.references ++ [s.nextReference expression], counter := s.counter + 1 }

def recordAll (s : Session) (expressions : List String) : Session :=
  expressions.foldl recordReference s

/-- The variables of a text, as the session reads it. -/
def mentions (s : Session) (text : String) : List String := (s.reader.read text).identifiers

/-- Records the variables of a text. -/
def recordExpression (s : Session) (text : String) : Session := s.recordAll (s.mentions text)

/-- Records the variables of a text and then binds the name; a literal keeps its type. -/
def assign (s : Session) (name text : String) : Session :=
  (s.recordExpression text).define name (.value (s.reader.read text).value)

/-! ## Opening scopes -/

/-- Records what is looped over, and opens a scope that binds the item. -/
def enterList (s : Session) (item list : String) : Session :=
  let listType := (s.nextReference list).typeName
  ((s.recordReference list).push .listItem list).define item
    (.marker (Naming.itemType list listType))

/-- Opens a scope that binds the parameters. -/
def enterMacro (s : Session) (name : String) (parameters : List String) : Session :=
  parameters.foldl (fun s p => s.define p (.marker objectType)) (s.push .macroBody name)

/-- Records the variables of the escaped text, and opens a scope that binds it. -/
def enterEscape (s : Session) (text name : String) : Session :=
  ((s.recordExpression text).push .escape text).define name (.marker objectType)

/-! ## Checking -/

def context (g : Graph) (s : Session) : Context where
  graph := g
  scopes := s.scopes
  globals := s.globals
  checkGlobalFields := s.settings.checksGlobalFields
  maxSuggestions := s.settings.maxSuggestions.toNat

/-- All that is wrong with the references so far. -/
def report (g : Graph) (s : Session) (c : Catalog) : Report × Catalog :=
  let (ds, c) := s.chain.evaluateAll (s.context g) s.references c
  (⟨ds⟩, c)

/-- Fails with the report if anything is wrong. -/
def validate (g : Graph) (s : Session) (c : Catalog) : Except Failure Unit × Catalog :=
  let (r, c) := s.report g c
  (if r.diagnostics.isEmpty then .ok () else .error (.rejected r), c)

/-- Closes all scopes, checks the references, and gives them back if nothing is wrong. -/
def finish (g : Graph) (s : Session) (c : Catalog) : Except Failure (List Reference) × Catalog :=
  let (result, c) := { s with scopes := s.scopes.popAll }.validate g c
  (result.map fun _ => s.references, c)

/-- Forgets all bindings and references. -/
def reset (s : Session) : Session :=
  { s with generation := s.generation + 1, scopes := .empty, references := [], counter := 0 }

end Session

end Stencil
