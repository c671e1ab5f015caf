/-!
# Places in a text

A cursor is what is left of a text together with the line and column where it starts. Lines end
with a line feed, a carriage return, both, or one of the three separators of Unicode.
-/

namespace Stencil.Yaml

structure Cursor where
  rest : List Char
  line : Nat
  column : Nat
  /-- How many bytes lie before. -/
  offset : Nat

def isBreak (c : Char) : Bool :=
  c == '\n' || c == '\r' || c == '\u0085' || c == '\u2028' || c == '\u2029'

def isSpace (c : Char) : Bool := c == ' ' || c == '\t'

def isGap (c : Char) : Bool := isSpace c || isBreak c

/-- A space, a line end or the end of the text comes next. -/
def atGap : List Char → Bool
  | [] => true
  | c :: _ => isGap c

/-- The line ends of a text as they read: a line feed, or the separator itself. -/
def lineEnds : List Char → List Char
  | [] => []
  | '\r' :: '\n' :: r => '\n' :: lineEnds r
  | c :: r =>
    if c == '\u2028' || c == '\u2029' then c :: lineEnds r
    else if isBreak c then '\n' :: lineEnds r
    else lineEnds r

namespace Cursor

def start (text : List Char) : Cursor := ⟨text, 0, 0, 0⟩

/-- One character further. -/
def next (k : Cursor) : Cursor :=
  match k.rest with
  | [] => k
  | c :: r =>
    let offset := k.offset + c.utf8Size
    if isBreak c && !(c == '\r' && r.head? == some '\n') then ⟨r, k.line + 1, 0, offset⟩
    else ⟨r, k.line, k.column + 1, offset⟩

def skip (k : Cursor) : Nat → Cursor
  | 0 => k
  | n + 1 => k.next.skip n

/-- Goes on to a rest of the text. -/
def goTo (k : Cursor) (rest : List Char) : Cursor := k.skip (k.rest.length - rest.length)

/-- The characters up to the first that fails the test, which also sees what comes after. -/
def spanList (p : Char → List Char → Bool) : List Char → List Char × List Char
  | [] => ([], [])
  | c :: r => if p c r then (c :: (spanList p r).1, (spanList p r).2) else ([], c :: r)

def span (k : Cursor) (p : Char → List Char → Bool) : List Char × Cursor :=
  let taken := (spanList p k.rest).1
  (taken, k.skip taken.length)

/-- A line starts here with a mark of three such characters. -/
def atMark (k : Cursor) (c : Char) : Bool :=
  k.column == 0 && [c, c, c].isPrefixOf k.rest && atGap (k.rest.drop 3)

/-- A document starts or ends here. -/
def atDocumentMark (k : Cursor) : Bool := k.atMark '-' || k.atMark '.'

end Cursor

end Stencil.Yaml
