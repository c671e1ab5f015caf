import Stencil.Expr.Reader
import Stencil.Shape.Catalog

/-!
# Settings

What a session can be told. Everything has a default, so nothing need be told.
-/

namespace Stencil

structure CatalogSettings where
  kind : CatalogKind
  /-- How long the shapes of an expiring catalog live, in milliseconds. -/
  lifetime : UInt64
deriving DecidableEq

def CatalogSettings.standard : CatalogSettings := ⟨.standard, 60000⟩

def CatalogSettings.build (s : CatalogSettings) : Catalog := .build s.kind s.lifetime.toNat

structure Settings where
  /-- References are numbered under this label. -/
  sourceLabel : String
  /-- The types of the globals are registered when a session starts. -/
  registersTypes : Bool
  /-- Fields of globals are checked too. -/
  checksGlobalFields : Bool
  maxSuggestions : UInt64
  reader : ReaderKind
  catalog : CatalogSettings
deriving DecidableEq

def Settings.standard : Settings := ⟨"template", true, false, 5, .standard, .standard⟩

/-- Why settings cannot be used. -/
inductive SettingsFault
  | unreadable
  | blankLabel
  | noSuggestions
  | missingFile (path : String)
  | invalidFile (path : String)
deriving DecidableEq

def SettingsFault.message : SettingsFault → String
  | unreadable => "Failed to parse session configuration"
  | blankLabel => "source_label must not be empty"
  | noSuggestions => "max_suggestions must be at least 1"
  | missingFile path => "Failed to read " ++ path
  | invalidFile path => "Invalid configuration in " ++ path

/-- The label must show something, and one suggestion is the least. -/
def Settings.check (s : Settings) : Except SettingsFault Settings :=
  if Text.allBlank s.sourceLabel then .error .blankLabel
  else if s.maxSuggestions = 0 then .error .noSuggestions
  else .ok s

end Stencil
