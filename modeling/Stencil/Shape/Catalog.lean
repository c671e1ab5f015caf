import Stencil.Text.Split
import Stencil.Text.Distance
import Stencil.Path.Basic
import Stencil.Shape.Store

/-!
# The catalog of shapes

A catalog answers for the shapes of types and for the types that names stand for. A request for a
type discovers it and all types that its fields lead to, as far as they are not kept already: depth
first, fields in the order of their names, each type once. A record that is discovered gives its
name to its type unless the name is taken.
-/

namespace Stencil

/-- What a catalog refuses. -/
inductive CatalogFault
  | readOnly (operation : String)
  | emptyAlias
deriving DecidableEq

def CatalogFault.message : CatalogFault → String
  | readOnly operation => "registry is read-only: '" ++ operation ++ "' is not supported"
  | emptyAlias => "alias must not be empty"

structure Catalog where
  store : Store
  /-- How many types were discovered so far. -/
  discoveries : Nat
  /-- Names are given by discovery only, and nothing is cleared. -/
  readOnly : Bool
deriving DecidableEq

/-- The catalogs that settings can name. -/
inductive CatalogKind
  | standard | concurrent | expiring
deriving DecidableEq

namespace CatalogKind

def label : CatalogKind → String
  | standard => "default" | concurrent => "concurrent" | expiring => "expiring"

def all : List CatalogKind := [standard, concurrent, expiring]

def ofLabel? (s : String) : Option CatalogKind := all.find? (·.label = s)

/-- Only the shapes of an expiring catalog have a lifetime. One that lasts is longer than any
work on a template. -/
def retention (k : CatalogKind) (lifetime : Nat) : Retention :=
  if k = expiring ∧ lifetime = 0 then .none else .kept

end CatalogKind

namespace Catalog

def empty (r : Retention) : Catalog := ⟨.empty r, 0, false⟩

def build (k : CatalogKind) (lifetime : Nat) : Catalog := .empty (k.retention lifetime)

/-- Keeps a discovered shape, and names its type if it is a record. -/
def add (c : Catalog) (s : Shape) : Catalog :=
  let store := c.store.put s
  { c with
    store := if s.isLeaf then store else store.setAlias s.type.name s.type false
    discoveries := c.discoveries + 1 }

/-- The types other than `t`. -/
def without (t : Descriptor) (ts : List Descriptor) : List Descriptor := ts.filter (· ≠ t)

theorem length_without_lt {t : Descriptor} {ts : List Descriptor} (h : t ∈ ts) :
    (without t ts).length < ts.length :=
  List.length_filter_lt_length_iff_exists.2 ⟨t, h, by simp⟩

/-- Discovers the pending types and what they lead to. `unseen` are the types that were not met on
the way so far; a type is discovered only as long as it is one of them. -/
def explore (g : Graph) (unseen pending : List Descriptor) (c : Catalog) : Catalog :=
  match pending with
  | [] => c
  | t :: rest =>
    if t ∈ unseen ∧ c.store.contains t = false then
      explore g (without t unseen) ((g.shape t).fields.values ++ rest) (c.add (g.shape t))
    else explore g unseen rest c
termination_by (unseen.length, pending.length)
decreasing_by
  · rename_i h
    exact Prod.Lex.left _ _ (length_without_lt h.1)
  · exact Prod.Lex.right _ (Nat.lt_succ_self _)

/-- The shape of a type. -/
def shapeOf (g : Graph) (c : Catalog) (t : Descriptor) : Shape × Catalog :=
  ((c.store.get? t).getD (g.shape t), c.explore g (t :: g.memberTypes) [t])

/-- Names a type in place of what the name stood for. -/
def register (g : Graph) (c : Catalog) (name : String) (t : Descriptor) :
    Except CatalogFault (Shape × Catalog) :=
  if c.readOnly then .error (.readOnly "register")
  else if name.isEmpty then .error .emptyAlias
  else .ok ({ c with store := c.store.setAlias name t true }.shapeOf g t)

/-- The shape of the type that a name stands for. -/
def resolve (g : Graph) (c : Catalog) (name : String) : Option Shape × Catalog :=
  match c.store.alias? name with
  | some t => ((c.shapeOf g t).1, (c.shapeOf g t).2)
  | none => (none, c)

def contains (c : Catalog) (name : String) : Bool := (c.store.alias? name).isSome

def shapes (c : Catalog) : List Shape := c.store.shapes

def clear (c : Catalog) : Except CatalogFault Catalog :=
  if c.readOnly then .error (.readOnly "clear") else .ok { c with store := c.store.clear }

/-- Two requests give one and the same shape, and not only equal ones. -/
def shares (c : Catalog) (a b : Descriptor) : Bool :=
  c.store.retention == .kept && a == b

/-! ## Fields -/

/-- Walks along fields from a shape. -/
def walk (g : Graph) : Catalog → Shape → List String → Bool × Catalog
  | c, _, [] => (true, c)
  | c, s, name :: rest =>
    match s.field? name with
    | some t => walk g (c.shapeOf g t).2 (c.shapeOf g t).1 rest
    | none => (false, c)

/-- The path leads along fields from the shape, at least one. -/
def hasPath (g : Graph) (c : Catalog) (s : Shape) (path : String) : Bool × Catalog :=
  match (Path.ofText path).segments with
  | [] => (false, c)
  | names => walk g c s names

/-- Suggested fields are within this edit distance. -/
def fieldSuggestionDistance : Nat := 2

def startsWith (start name : String) : Bool := start.toList.isPrefixOf name.toList

/-- The fields that start like the word or are close to it. -/
def closeFields (s : Shape) (word : String) : List String :=
  s.names.filter fun name =>
    startsWith word name || Text.distance name.toList word.toList ≤ fieldSuggestionDistance

/-- The fields suggested for the last of the words, after a walk along the others. -/
def suggestFrom (g : Graph) : Catalog → Shape → List String → List String × Catalog
  | c, _, [] => ([], c)
  | c, s, [word] => (if word.isEmpty then [] else closeFields s word, c)
  | c, s, word :: rest =>
    match s.field? word with
    | some t => suggestFrom g (c.shapeOf g t).2 (c.shapeOf g t).1 rest
    | none => (s.names.filter (startsWith word), c)

def suggest (g : Graph) (c : Catalog) (s : Shape) (path : String) : List String × Catalog :=
  suggestFrom g c s ((path.toList.splitOnP (· == '.')).map String.ofList)

/-- The name stands for a type from which the path leads along fields. -/
def knowsField (g : Graph) (c : Catalog) (name path : String) : Bool × Catalog :=
  match c.resolve g name with
  | (some s, c) => c.hasPath g s path
  | (none, c) => (false, c)

def suggestions (g : Graph) (c : Catalog) (name path : String) : List String × Catalog :=
  match c.resolve g name with
  | (some s, c) => c.suggest g s path
  | (none, c) => ([], c)

end Catalog

end Stencil
