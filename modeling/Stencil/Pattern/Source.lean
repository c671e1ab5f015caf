import Stencil.Text.Blank
import Stencil.Pattern.Class
import Stencil.Pattern.Program

/-!
# The written form of patterns

A written pattern is cut into marks first: brackets, bars, repetitions, and the items that match
one character or none. Then the marks are put together on a stack of open brackets. A pattern is
refused when it is nested too deep or its program is too long.
-/

namespace Stencil.Pattern

/-- A pattern, and how deep its written form is nested. -/
structure Part where
  pattern : Pattern
  depth : Nat

inductive Mark
  /-- An opening bracket, with its number when its group has one. -/
  | opening (number : Option Nat)
  | closing
  | bar
  | repetition (least : Nat) (most : Option Nat) (greedy : Bool)
  | item (p : Part)

/-! ## Marks -/

def number (ds : List Char) : Nat := ds.foldl (fun n d => 10 * n + (d.toNat - '0'.toNat)) 0

/-- The largest count of a repetition. -/
def maxCount : Nat := 4294967295

/-- A count and the text after it; blanks may stand around it. -/
def count? (s : List Char) : Option (Nat × List Char) :=
  let (ds, r) := (Text.trimStart s).span Char.isDigit
  if ds.isEmpty || maxCount < number ds then none else some (number ds, Text.trimStart r)

/-- The bounds of a counted repetition after its opening brace. -/
def counts? (s : List Char) : Option ((Nat × Option Nat) × List Char) := do
  let (a, r) ← count? s
  match r with
  | '\x7d' :: r => some ((a, some a), r)
  | ',' :: '\x7d' :: r => some ((a, none), r)
  | ',' :: r =>
    match ← count? r with
    | (b, '\x7d' :: r) => if b < a then none else some ((a, some b), r)
    | _ => none
  | _ => none

/-- A repetition, and the text after it; a question mark behind it asks for few. -/
def repetition (least : Nat) (most : Option Nat) : List Char → Mark × List Char
  | '?' :: r => (.repetition least most false, r)
  | r => (.repetition least most true, r)

/-- A pattern that is not nested. -/
def plain (p : Pattern) : Mark := .item ⟨p, 0⟩

/-- A character, in any case. -/
def ofChar (c : Char) : Pattern := set (CharSet.single c).foldClosed

/-- Any character but the end of a line. -/
def anyChar : Pattern := set (CharSet.single '\n').compl

def Escape.pattern : Escape → Pattern
  | char c => ofChar c
  | set s => Pattern.set s
  | anchor p => p

/-- The opening of a bracket. The text left after it is the number of its group. -/
def opening? : List Char → Option (Mark × List Char)
  | '?' :: ':' :: r => some (.opening none, r)
  | '?' :: _ => none
  | r => some (.opening (some r.length), r)

/-- The first mark and the text after it. -/
def mark? : List Char → Option (Mark × List Char)
  | [] => none
  | '(' :: r => opening? r
  | ')' :: r => some (.closing, r)
  | '|' :: r => some (.bar, r)
  | '.' :: r => some (plain anyChar, r)
  | '^' :: r => some (plain first, r)
  | '$' :: r => some (plain last, r)
  | '*' :: r => some (repetition 0 none r)
  | '+' :: r => some (repetition 1 none r)
  | '?' :: r => some (repetition 0 (some 1) r)
  | '\x7b' :: r => (counts? r).map fun ((least, most), rest) => repetition least most rest
  | '[' :: r => (set? r).map fun ((s, depth), rest) => (.item ⟨set s, depth⟩, rest)
  | '\\' :: r =>
    match r with
    | [] => none
    | c :: r => (escape? c).map fun e => (plain e.pattern, r)
  | c :: r => some (plain (ofChar c), r)

/-- All marks of a text; each takes at least one character. -/
def marksOf : Nat → List Char → Option (List Mark)
  | _, [] => some []
  | 0, _ :: _ => none
  | n + 1, s => (mark? s).bind fun (m, r) => (marksOf n r).map (m :: ·)

/-! ## Putting marks together -/

namespace Part

/-- Several parts are one that is nested deeper; a part alone is not. -/
def join (build : List Pattern → Pattern) (ps : List Part) : Part :=
  let depth := ps.foldl (fun d p => max d p.depth) 0
  ⟨build (ps.map (·.pattern)), if ps.length ≤ 1 then depth else depth + 1⟩

/-- A part in brackets. -/
def enclosed (number : Option Nat) (p : Part) : Part :=
  match number with
  | some n => ⟨group n p.pattern, p.depth + 1⟩
  | none => ⟨p.pattern, p.depth + 1⟩

def repeated (least : Nat) (most : Option Nat) (greedy : Bool) (p : Part) : Part :=
  ⟨p.pattern.repeated least most greedy, p.depth + 1⟩

end Part

/-- What is read inside a bracket: the closed alternatives, and the items of the last one. Both
lists have the latest first. -/
structure Level where
  number : Option Nat
  alternatives : List Part
  items : List Part

namespace Level

def alternative (l : Level) : Part := .join sequence l.items.reverse

def part (l : Level) : Part := .join choice (l.alternative :: l.alternatives).reverse

def push (l : Level) (p : Part) : Level := { l with items := p :: l.items }

def bar (l : Level) : Level :=
  { l with alternatives := l.alternative :: l.alternatives, items := [] }

end Level

/-- One mark more, on the open levels with the innermost first. -/
def place : List Level → Mark → Option (List Level)
  | [], _ => none
  | l :: ls, .opening number => some (⟨number, [], []⟩ :: l :: ls)
  | l :: outer :: ls, .closing => some (outer.push (l.part.enclosed l.number) :: ls)
  | [_], .closing => none
  | l :: ls, .bar => some (l.bar :: ls)
  | l :: ls, .item p => some (l.push p :: ls)
  | l :: ls, .repetition least most greedy =>
    match l.items with
    | [] => none
    | p :: ps => some ({ l with items := p.repeated least most greedy :: ps } :: ls)

/-- How deep a pattern may be nested. -/
def maxDepth : Nat := 250

/-- How many instructions a program may have. -/
def maxSize : Nat := 200000

/-- The pattern that is written after an empty first item. -/
def ofSource? (s : List Char) : Option Pattern := do
  let marks ← marksOf s.length s
  match ← marks.foldlM place [⟨none, [], [⟨empty, 0⟩]⟩] with
  | [l] =>
    if l.part.depth ≤ maxDepth ∧ l.part.pattern.size ≤ maxSize then some l.part.pattern else none
  | _ => none

/-- The pattern with this source at the end of a word. The source is set in brackets as it stands,
so it need not be a pattern alone. -/
def ofSuffix? (source : String) : Option Pattern :=
  ofSource? ("(?:".toList ++ source.toList ++ ")$".toList)

end Stencil.Pattern
