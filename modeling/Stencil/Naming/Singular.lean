import Stencil.Table
import Stencil.Pattern.Source

/-!
# Singular forms

The item of a loop is named by the singular of what is looped over. Irregular words are looked up,
others lose or change their ending by the first rule that fits; rules added later come first. The
new ending is written in the case of the old one.
-/

namespace Stencil.Naming

/-- What a rule looks for. -/
inductive Ending
  /-- These letters, in any case, at the end of a word. -/
  | letters (s : List Char)
  | pattern (p : Pattern)

/-- The text before an ending, and what is found. -/
def Ending.find? (word : List Char) : Ending → Option (List Char × List Char)
  | letters s =>
    let (before, found) := word.splitAt (word.length - s.length)
    if found.map Text.fold = s.map Text.fold then some (before, found) else none
  | pattern p => p.find? word

/-- What a rule finds in a word, and what it puts in its place. -/
structure PluralRule where
  ending : Ending
  replacement : String

structure Singularizer where
  irregular : Table String
  rules : List PluralRule

/-- The replacement in the case of the text it replaces: all capitals, a capital first, or as it
is. -/
def preserveCase (found replacement : List Char) : List Char :=
  if found.any Text.isAlphabetic && !found.any Text.isLowercase then Text.toUpper replacement
  else match found, replacement with
    | f :: _, c :: r => if Text.isUppercase f then Text.upper c ++ r else c :: r
    | _, _ => replacement

def lowered (word : String) : String := String.ofList (Text.toLower word.toList)

namespace Singularizer

def irregularWords : List (String × String) :=
  [("children", "child"), ("men", "man"), ("women", "woman"), ("people", "person"),
    ("feet", "foot"), ("teeth", "tooth")]

/-- The endings of plurals, and those of the singulars. -/
def endings : List (String × String) :=
  [("ies", "y"), ("ves", "f"), ("oes", "o"), ("xes", "x"), ("zes", "z"), ("ches", "ch"),
    ("shes", "sh"), ("ses", "s"), ("s", "")]

def standard : Singularizer where
  irregular := .ofList irregularWords
  rules := endings.map fun e => ⟨.letters e.1.toList, e.2⟩

/-- Adds a rule in front; it fails when the source is no pattern. -/
def addRule? (s : Singularizer) (source replacement : String) : Option Singularizer :=
  (Pattern.ofSuffix? source).map fun p => { s with rules := ⟨.pattern p, replacement⟩ :: s.rules }

def addIrregular (s : Singularizer) (plural singular : String) : Singularizer :=
  { s with irregular := s.irregular.set (lowered plural) singular }

/-- The word by the first of the rules that fits. -/
def applyRules : List PluralRule → List Char → List Char
  | [], word => word
  | rule :: rules, word =>
    match rule.ending.find? word with
    | some (before, found) => before ++ preserveCase found rule.replacement.toList
    | none => applyRules rules word

def apply (s : Singularizer) (word : String) : String :=
  if word.isEmpty then ""
  else
    match s.irregular.get? (lowered word) with
    | some singular => String.ofList (preserveCase word.toList singular.toList)
    | none => String.ofList (applyRules s.rules word.toList)

end Singularizer

def singular (word : String) : String := Singularizer.standard.apply word

end Stencil.Naming
