import Stencil.Yaml.Scalar

/-!
# The marks of a settings text

The text is cut into scalars and marks, and marks are added where a block starts and ends by its
indentation. Whether a scalar or a collection is a key shows only at the colon after it, which must
stand on the same line; the marks for a key are then put in before it. Of the language only
collections and plain and quoted scalars are read: no directives, anchors, tags or block scalars.
-/

namespace Stencil.Yaml

inductive Token
  | documentStart | documentEnd
  | sequenceStart | mappingStart | blockEnd | entry
  | flowSequenceStart | flowSequenceEnd | flowMappingStart | flowMappingEnd | flowEntry
  | key | value
  | scalar (isPlain : Bool) (text : String)
deriving DecidableEq

/-- Where a key may have started. -/
structure PossibleKey where
  /-- How many tokens were there before. -/
  index : Nat
  /-- Nothing but a key can stand there. -/
  required : Bool
  line : Nat
  column : Nat
  offset : Nat

/-- How far the text is cut into tokens. -/
structure Progress where
  cursor : Cursor
  /-- The tokens up to there, the latest first. -/
  tokens : List Token
  /-- How many there are. -/
  count : Nat
  /-- The columns of the open blocks, the innermost first. -/
  indents : List Nat
  /-- The possible key of each open flow collection, and of the block around them last. -/
  keys : List (Option PossibleKey)
  /-- A key may start here. -/
  keyAllowed : Bool

namespace Progress

def start (text : List Char) : Progress := ⟨.start text, [], 0, [], [none], true⟩

def inFlow (p : Progress) : Bool := 1 < p.keys.length

/-- The least column inside the innermost block. -/
def inside (p : Progress) : Nat := (p.indents.head?.map (· + 1)).getD 0

/-- Puts in a token behind the first `index`. -/
def insert (p : Progress) (index : Nat) (t : Token) : Progress :=
  { p with tokens := p.tokens.insertIdx (p.count - index) t, count := p.count + 1 }

def emit (p : Progress) (t : Token) : Progress := p.insert p.count t

/-- Passes so many characters. -/
def pass (p : Progress) (n : Nat) : Progress := { p with cursor := p.cursor.skip n }

def allowKey (p : Progress) (b : Bool) : Progress := { p with keyAllowed := b }

def setKey (p : Progress) (k : Option PossibleKey) : Progress := { p with keys := k :: p.keys.tail }

/-- Passes spaces, comments and line ends, and a byte order mark that starts a line. A tab counts as
a space where no key may start. -/
def skipGaps : Nat → Progress → Progress
  | 0, p => p
  | n + 1, p =>
    match p.cursor.rest with
    | [] => p
    | c :: _ =>
      if c == ' ' || c == '\ufeff' && p.cursor.column == 0
          || c == '\t' && (p.inFlow || !p.keyAllowed) then
        skipGaps n (p.pass 1)
      else if c == '#' then
        skipGaps n { p with cursor := (p.cursor.span fun c _ => !isBreak c).2 }
      else if isBreak c then skipGaps n ((p.pass 1).allowKey (p.keyAllowed || !p.inFlow))
      else p

/-- Drops the possible keys on an earlier line or more than 1024 bytes away; fails when one of them
had to be a key. -/
def dropStaleKeys (p : Progress) : Option Progress := do
  let stale (k : PossibleKey) : Bool :=
    k.line < p.cursor.line || k.offset + 1024 < p.cursor.offset
  let keys ← p.keys.mapM fun
    | some k => if stale k then if k.required then none else some none else some (some k)
    | none => some none
  return { p with keys }

/-- Closes the blocks that are indented further. -/
def closeBlocks (column : Int) : List Nat → Progress → Progress
  | [], p => { p with indents := [] }
  | i :: is, p =>
    if column < i then closeBlocks column is (p.emit .blockEnd) else { p with indents := i :: is }

def unindent (p : Progress) (column : Int) : Progress :=
  if p.inFlow then p else closeBlocks column p.indents p

/-- Opens a block at the column, unless one is open there. -/
def indent (p : Progress) (column index : Nat) (t : Token) : Progress :=
  if p.inFlow || p.indents.head?.any (column ≤ ·) then p
  else { p.insert index t with indents := column :: p.indents }

/-- Gives up the possible key here; fails when it had to be a key. -/
def dropKey (p : Progress) : Option Progress :=
  match p.keys.head? with
  | some (some k) => if k.required then none else some (p.setKey none)
  | _ => some p

/-- Notes that a key may start here. -/
def noteKey (p : Progress) : Option Progress :=
  if p.keyAllowed then
    p.dropKey.map fun p =>
      p.setKey (some {
        index := p.count
        required := !p.inFlow && p.indents.head? == some p.cursor.column
        line := p.cursor.line
        column := p.cursor.column
        offset := p.cursor.offset })
  else some p

def documentMark (p : Progress) (t : Token) : Option Progress :=
  ((p.unindent (-1)).dropKey).map fun p => ((p.allowKey false).pass 3).emit t

def openFlow (p : Progress) (t : Token) : Option Progress :=
  p.noteKey.map fun p => (({ p with keys := none :: p.keys }.allowKey true).pass 1).emit t

def closeFlow (p : Progress) (t : Token) : Option Progress :=
  p.dropKey.map fun p =>
    let keys := if p.inFlow then p.keys.tail else p.keys
    (({ p with keys }.allowKey false).pass 1).emit t

def flowEntry (p : Progress) : Option Progress :=
  p.dropKey.map fun p => ((p.allowKey true).pass 1).emit .flowEntry

def blockEntry (p : Progress) : Option Progress :=
  if !p.inFlow && !p.keyAllowed then none
  else
    (p.indent p.cursor.column p.count .sequenceStart).dropKey.map fun p =>
      ((p.allowKey true).pass 1).emit .entry

/-- A question mark before a key. -/
def explicitKey (p : Progress) : Option Progress :=
  if !p.inFlow && !p.keyAllowed then none
  else
    (p.indent p.cursor.column p.count .mappingStart).dropKey.map fun p =>
      ((p.allowKey (!p.inFlow)).pass 1).emit .key

/-- The colon after a key. -/
def valueMark (p : Progress) : Option Progress :=
  match p.keys.head? with
  | some (some k) =>
    let p := ((p.insert k.index .key).indent k.column k.index .mappingStart).setKey none
    some (((p.allowKey false).pass 1).emit .value)
  | _ =>
    if !p.inFlow && !p.keyAllowed then none
    else
      let p := p.indent p.cursor.column p.count .mappingStart
      some (((p.allowKey (!p.inFlow)).pass 1).emit .value)

def quotedScalar (fuel : Nat) (p : Progress) (quote : Char) : Option Progress := do
  let p ← p.noteKey
  let (s, rest) ← quoted? quote fuel p.cursor.rest.tail
  return ({ p with cursor := p.cursor.goTo rest }.allowKey false).emit
    (.scalar false (String.ofList s))

def plainScalar (fuel : Nat) (p : Progress) : Option Progress := do
  let p ← p.noteKey
  let (s, ended, k) ← plain? p.inFlow p.inside fuel p.cursor
  return ({ p with cursor := k }.allowKey ended).emit (.scalar true (String.ofList s))

/-- A plain scalar may start with `c` before what comes after it. -/
def startsPlain (p : Progress) (c : Char) (r : List Char) : Bool :=
  !(isGap c || "-?:,[]\x7b\x7d#&*!|>'\"%@\x60".toList.contains c)
    || c == '-' && !r.head?.any isSpace
    || !p.inFlow && (c == '?' || c == ':') && !atGap r

/-- The next token; `none` inside when the text is at its end. The fuel exceeds what is left of the
text. -/
def step (fuel : Nat) (p : Progress) : Option (Option Progress) := do
  let p := skipGaps fuel p
  let p ← p.dropStaleKeys
  let p := p.unindent p.cursor.column
  match p.cursor.rest with
  | [] => return none
  | c :: r =>
    if c == '%' && p.cursor.column == 0 then none
    else if p.cursor.atMark '-' then (p.documentMark .documentStart).map some
    else if p.cursor.atMark '.' then (p.documentMark .documentEnd).map some
    else if c == '[' then (p.openFlow .flowSequenceStart).map some
    else if c == '\x7b' then (p.openFlow .flowMappingStart).map some
    else if c == ']' then (p.closeFlow .flowSequenceEnd).map some
    else if c == '\x7d' then (p.closeFlow .flowMappingEnd).map some
    else if c == ',' then p.flowEntry.map some
    else if c == '-' && atGap r then p.blockEntry.map some
    else if c == '?' && (p.inFlow || atGap r) then p.explicitKey.map some
    else if c == ':' && (p.inFlow || atGap r) then p.valueMark.map some
    else if c == '\'' || c == '"' then (p.quotedScalar fuel c).map some
    else if p.startsPlain c r then (p.plainScalar fuel).map some
    else none

/-- All tokens; every step takes at least one character. -/
def run : Nat → Progress → Option (List Token)
  | 0, _ => none
  | n + 1, p => do
    match ← p.step (n + 1) with
    | some p => run n p
    | none =>
      let p ← (p.unindent (-1)).dropKey
      return p.tokens.reverse

end Progress

/-- Characters that a text may contain. -/
def isReadable (c : Char) : Bool :=
  let n := c.toNat
  n == 0x09 || n == 0x0A || n == 0x0D || (0x20 ≤ n && n ≤ 0x7E) || n == 0x85
    || (0xA0 ≤ n && n ≤ 0xFFFD) || 0x10000 ≤ n

def Token.ofText? (text : List Char) : Option (List Token) :=
  if text.all isReadable then (Progress.start text).run (text.length + 1) else none

end Stencil.Yaml
