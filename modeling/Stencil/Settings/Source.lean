import Stencil.Number.Word
import Stencil.Yaml.Node
import Stencil.Settings.Basic

/-!
# The written form of settings

Settings are written as a mapping from their names. A name may be left out, but a known one must
not stand twice; unknown names count for nothing. An empty text leaves everything at its default.
-/

namespace Stencil.Settings

open Yaml (Node)

/-! ## Single settings -/

/-- Any scalar, by its text. -/
def text? : Node → Option String
  | .scalar _ s => some s
  | _ => none

def truth? : Node → Option Bool
  | .scalar true s =>
    if ["true", "True", "TRUE"].contains s then some true
    else if ["false", "False", "FALSE"].contains s then some false
    else none
  | _ => none

/-- The number that digits of the base stand for, at least one of them. -/
def number? (base : Nat) (ds : List Char) : Option Nat :=
  if ds.isEmpty then none
  else ds.foldlM (fun n d => do
    let v ← Yaml.hexDigit? d
    if v < base then some (base * n + v) else none) 0

/-- A whole number: in decimal without leading zeros, or after a mark in another base. -/
def natural? (s : List Char) : Option Nat :=
  let r := match s with
    | '+' :: r => r
    | r => r
  match r with
  | '0' :: 'x' :: ds => number? 16 ds
  | '0' :: 'o' :: ds => number? 8 ds
  | '0' :: 'b' :: ds => number? 2 ds
  | '0' :: _ :: _ => none
  | ds => number? 10 ds

def word? : Node → Option UInt64
  | .scalar true s => (natural? s.toList).bind word64?
  | _ => none

/-! ## Mappings -/

/-- The entries of a mapping by the texts of their keys. What is left empty has none. -/
def entries? : Node → Option (List (String × Node))
  | .scalar true "" => some []
  | .mapping es => es.mapM fun (k, v) => (text? k).map fun name => (name, v)
  | _ => none

/-- No known name stands twice. -/
def isUnambiguous (names : List String) (es : List (String × Node)) : Bool :=
  names.all fun name => (es.filter (·.1 = name)).length ≤ 1

/-- The setting of this name, or its default. -/
def get? {α : Type} (es : List (String × Node)) (name : String) (read : Node → Option α)
    (default : α) : Option α :=
  match es.lookup name with
  | some v => read v
  | none => some default

def catalog? (node : Node) : Option CatalogSettings := do
  let es ← entries? node
  let d := CatalogSettings.standard
  if isUnambiguous ["kind", "ttl_ms"] es then
    return {
      kind := ← get? es "kind" (fun v => (text? v).bind CatalogKind.ofLabel?) d.kind
      lifetime := ← get? es "ttl_ms" word? d.lifetime }
  else none

def names : List String :=
  ["source_label", "auto_register_types", "check_global_fields", "max_suggestions", "parser",
    "registry"]

def ofNode? (node : Node) : Option Settings := do
  let es ← entries? node
  let d := Settings.standard
  if isUnambiguous names es then
    return {
      sourceLabel := ← get? es "source_label" text? d.sourceLabel
      registersTypes := ← get? es "auto_register_types" truth? d.registersTypes
      checksGlobalFields := ← get? es "check_global_fields" truth? d.checksGlobalFields
      maxSuggestions := ← get? es "max_suggestions" word? d.maxSuggestions
      reader := ← get? es "parser" (fun v => (text? v).bind ReaderKind.ofLabel?) d.reader
      catalog := ← get? es "registry" catalog? d.catalog }
  else none

def ofText? (text : String) : Option Settings :=
  match Node.ofText? text with
  | some none => some .standard
  | some (some node) => ofNode? node
  | none => none

/-- Reads and checks settings. -/
def ofText (text : String) : Except SettingsFault Settings :=
  match ofText? text with
  | some s => s.check
  | none => .error .unreadable

/-! ## Files -/

/-- The settings in a file with this content; there may be no such file. -/
def ofFile (path : String) (content : Option String) : Except SettingsFault Settings :=
  match content with
  | none => .error (.missingFile path)
  | some text =>
    match ofText text with
    | .ok s => .ok s
    | .error _ => .error (.invalidFile path)

/-- Without a file everything is at its default. -/
def ofFileOrStandard (path : String) (content : Option String) : Except SettingsFault Settings :=
  if content.isNone then .ok .standard else ofFile path content

/-- The file that is read when the environment names none. -/
def standardFile : String := "template-semantics.yaml"

/-- The path of the settings file, given what the environment says. -/
def filePath (environment : Option String) : String :=
  match environment with
  | some path => if Text.allBlank path then standardFile else path
  | none => standardFile

end Stencil.Settings
