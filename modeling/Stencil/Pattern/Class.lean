import Stencil.Pattern.Basic

/-!
# Sets in brackets

A set lists characters, ranges, named sets and further sets in brackets. Two such lists may be put
together by `&&`, `--` or `~~`, from left to right; each is first closed under changes of case. How
deep a set is nested is counted beside it.
-/

namespace Stencil.Pattern

/-! ## Escapes -/

inductive Escape
  | char (c : Char)
  | set (members : CharSet)
  /-- A place in the text. -/
  | anchor (p : Pattern)

def digits : CharSet := .ofRanges [(0x30, 0x39)]

def wordChars : CharSet := .ofRanges [(0x30, 0x39), (0x41, 0x5A), (0x5F, 0x5F), (0x61, 0x7A)]

def blanks : CharSet :=
  .ofRanges [(0x9, 0xD), (0x20, 0x20), (0x85, 0x85), (0xA0, 0xA0), (0x1680, 0x1680),
    (0x2000, 0x200A), (0x2028, 0x2029), (0x202F, 0x202F), (0x205F, 0x205F), (0x3000, 0x3000)]

/-- What a character after a backslash stands for. -/
def escape? (c : Char) : Option Escape :=
  match c with
  | 'd' => some (.set digits)
  | 'D' => some (.set digits.compl)
  | 'w' => some (.set wordChars)
  | 'W' => some (.set wordChars.compl)
  | 's' => some (.set blanks)
  | 'S' => some (.set blanks.compl)
  | 'n' => some (.char '\n')
  | 't' => some (.char '\t')
  | 'r' => some (.char '\r')
  | 'f' => some (.char '\x0c')
  | 'v' => some (.char '\x0b')
  | 'a' => some (.char '\x07')
  | 'A' => some (.anchor first)
  | 'z' => some (.anchor last)
  | c => if c.toNat < 0x80 && !c.isAlphanum && c != '<' && c != '>' then some (.char c) else none

/-! ## Named sets -/

def namedRanges? (name : String) : Option (List (Nat × Nat)) :=
  [("alnum", [(0x30, 0x39), (0x41, 0x5A), (0x61, 0x7A)]), ("alpha", [(0x41, 0x5A), (0x61, 0x7A)]),
    ("ascii", [(0x0, 0x7F)]), ("blank", [(0x9, 0x9), (0x20, 0x20)]),
    ("cntrl", [(0x0, 0x1F), (0x7F, 0x7F)]), ("digit", [(0x30, 0x39)]), ("graph", [(0x21, 0x7E)]),
    ("lower", [(0x61, 0x7A)]), ("print", [(0x20, 0x7E)]),
    ("punct", [(0x21, 0x2F), (0x3A, 0x40), (0x5B, 0x60), (0x7B, 0x7E)]),
    ("space", [(0x9, 0xD), (0x20, 0x20)]), ("upper", [(0x41, 0x5A)]),
    ("word", [(0x30, 0x39), (0x41, 0x5A), (0x5F, 0x5F), (0x61, 0x7A)]),
    ("xdigit", [(0x30, 0x39), (0x41, 0x46), (0x61, 0x66)])].lookup name

/-- Closes a set under changes of case, and turns it round when asked to. -/
def settled (negated : Bool) (s : CharSet) : CharSet :=
  if negated then s.foldClosed.compl else s.foldClosed

/-- A named set after its opening bracket, as in `[:alpha:]` or `[:^alpha:]`. -/
def named? : List Char → Option (CharSet × List Char)
  | ':' :: r =>
    let negated := r.head? == some '^'
    let (name, r) := (if negated then r.tail else r).span (· != ':')
    match namedRanges? (String.ofList name), r with
    | some ranges, ':' :: ']' :: r => some (settled negated (.ofRanges ranges), r)
    | _, _ => none
  | _ => none

/-! ## Lists of members -/

/-- A set that is being read. -/
structure OpenSet where
  negated : Bool
  /-- How the list that is read is put together with what comes before it, which is nested so
  deep. -/
  before : Option ((CharSet → CharSet → CharSet) × CharSet × Nat)
  /-- What the list holds so far. -/
  members : CharSet
  /-- How many entries the list has. -/
  entries : Nat
  /-- How deep its entries are nested. -/
  depth : Nat

namespace OpenSet

def start (negated : Bool) : OpenSet := ⟨negated, none, .empty, 0, 0⟩

def add (o : OpenSet) (s : CharSet) (depth : Nat) : OpenSet :=
  { o with members := o.members.union s, entries := o.entries + 1, depth := max o.depth depth }

/-- All that is read, put together, and its depth. -/
def whole (o : OpenSet) : CharSet × Nat :=
  let depth := if o.entries ≤ 1 then o.depth else o.depth + 1
  match o.before with
  | none => (o.members, depth)
  | some (op, left, leftDepth) =>
    (op left.foldClosed o.members.foldClosed, max leftDepth depth + 1)

/-- Another list follows. -/
def operate (o : OpenSet) (op : CharSet → CharSet → CharSet) : OpenSet :=
  { start o.negated with before := some (op, o.whole) }

def close (o : OpenSet) : CharSet × Nat := (settled o.negated o.whole.1, o.whole.2 + 1)

end OpenSet

/-- Reads the hyphens and the closing bracket that count as members at the start of a set. -/
def leading (o : OpenSet) : List Char → OpenSet × List Char
  | '-' :: r => leading (o.add (.single '-') 0) r
  | ']' :: r => if o.entries = 0 then (o.add (.single ']') 0, r) else (o, ']' :: r)
  | r => (o, r)

/-- A set after its opening bracket, up to its first proper entry. -/
def opened : List Char → OpenSet × List Char
  | '^' :: r => leading (.start true) r
  | r => leading (.start false) r

def member? : List Char → Option (Escape × List Char)
  | [] => none
  | '\\' :: [] => none
  | '\\' :: c :: r => (escape? c).map (·, r)
  | c :: r => some (.char c, r)

/-- A character, a range or an escaped set. -/
def entry? (s : List Char) : Option (CharSet × List Char) := do
  let (e, r) ← member? s
  match e, r with
  | e, '-' :: d :: r =>
    if d = ']' ∨ d = '-' then
      match e with
      | .char c => some (.single c, '-' :: d :: r)
      | .set s => some (s, '-' :: d :: r)
      | .anchor _ => none
    else
      match e, ← member? (d :: r) with
      | .char a, (.char b, r) => if a ≤ b then some (.range a.toNat b.toNat, r) else none
      | _, _ => none
  | .char c, r => some (.single c, r)
  | .set s, r => some (s, r)
  | .anchor _, _ => none

/-- Reads an open set to its end. Every step takes at least one character. -/
def finish? : Nat → OpenSet → List Char → Option ((CharSet × Nat) × List Char)
  | 0, _, _ => none
  | _, _, [] => none
  | n + 1, o, c :: r =>
    match c, r with
    | ']', r => some (o.close, r)
    | '[', r =>
      match named? r with
      | some (s, r) => finish? n (o.add s 0) r
      | none => do
        let (inner, r) := opened r
        let ((s, depth), r) ← finish? n inner r
        finish? n (o.add s depth) r
    | '&', '&' :: r => finish? n (o.operate .inter) r
    | '-', '-' :: r => finish? n (o.operate .diff) r
    | '~', '~' :: r => finish? n (o.operate .symmDiff) r
    | c, r => do
      let (s, r) ← entry? (c :: r)
      finish? n (o.add s 0) r

/-- A set after its opening bracket: its members, how deep it is nested, and the text after it. -/
def set? (s : List Char) : Option ((CharSet × Nat) × List Char) :=
  let (o, r) := opened s
  finish? (s.length + 1) o r

end Stencil.Pattern
