import Stencil.Yaml.Cursor

/-!
# Scalars

A plain scalar ends before a colon or a comment, or where the indentation ends; a quoted one at its
quote. One line end inside a scalar reads as a space, and more of them as all but the first. A line
or paragraph separator is kept where it stands.
-/

namespace Stencil.Yaml

/-- How a gap between two words of a scalar reads. -/
def foldGap (gap : List Char) : List Char :=
  match lineEnds gap with
  | [] => gap
  | ['\n'] => [' ']
  | '\n' :: ends => ends
  | ends => ends

/-! ## Plain scalars -/

def isFlowMark (c : Char) : Bool := ",[]\x7b\x7d".toList.contains c

/-- A character of a plain scalar, before what comes after it. -/
def isWordChar (flow : Bool) (c : Char) (r : List Char) : Bool :=
  !isGap c && !(c == ':' && (atGap r || (flow && r.head?.any fun d => isFlowMark d || d == '?')))
    && !(flow && isFlowMark c)

/-- After a line end, a tab stands before the given column. -/
def tabIndents (indent : Nat) : Bool → Nat → List Char → Bool
  | _, _, [] => false
  | after, column, c :: r =>
    if isBreak c then tabIndents indent true 0 r
    else after && c == '\t' && column < indent || tabIndents indent after (column + 1) r

/-- A plain scalar and the place after it; and whether a line ended there. Fails at a tab that
indents, and in a flow collection at a colon that nothing separates from what follows. -/
def plain? (flow : Bool) (indent : Nat) : Nat → Cursor → Option (List Char × Bool × Cursor)
  | 0, k => some ([], false, k)
  | n + 1, k =>
    if k.atDocumentMark || k.rest.head? == some '#' then some ([], false, k)
    else
      let (word, k) := k.span (isWordChar flow)
      match k.rest with
      | [] => some (word, false, k)
      | c :: r =>
        if c == ':' && !atGap r then none
        else if !isGap c then some (word, false, k)
        else
          let (gap, k) := k.span fun c _ => isGap c
          let ended := !(lineEnds gap).isEmpty
          if tabIndents indent false 0 gap then none
          else if !flow && k.column < indent then some (word, ended, k)
          else
            (plain? flow indent n k).map fun (more, lastEnded, k) =>
              if more.isEmpty then (word, ended || lastEnded, k)
              else (word ++ foldGap gap ++ more, lastEnded, k)

/-! ## Quoted scalars -/

def hexDigit? (c : Char) : Option Nat :=
  if c.isDigit then some (c.toNat - '0'.toNat)
  else if 'a' ≤ c ∧ c ≤ 'f' then some (c.toNat - 'a'.toNat + 10)
  else if 'A' ≤ c ∧ c ≤ 'F' then some (c.toNat - 'A'.toNat + 10)
  else none

/-- The character with the code point that the first digits give, and the text after them. -/
def codePoint? (digits : Nat) (s : List Char) : Option (Char × List Char) := do
  let ds ← (s.take digits).mapM hexDigit?
  let n := ds.foldl (fun n d => 16 * n + d) 0
  if ds.length = digits ∧ (n < 0xD800 ∨ 0xDFFF < n ∧ n < 0x110000) then
    some (Char.ofNat n, s.drop digits)
  else none

/-- What an escape after a backslash stands for, and the text after it. -/
def escape? : List Char → Option (Char × List Char)
  | [] => none
  | c :: r =>
    match c with
    | 'x' => codePoint? 2 r
    | 'u' => codePoint? 4 r
    | 'U' => codePoint? 8 r
    | '0' => some ('\x00', r)
    | 'a' => some ('\x07', r)
    | 'b' => some ('\x08', r)
    | 't' => some ('\t', r)
    | '\t' => some ('\t', r)
    | 'n' => some ('\n', r)
    | 'v' => some ('\x0b', r)
    | 'f' => some ('\x0c', r)
    | 'r' => some ('\r', r)
    | 'e' => some ('\x1b', r)
    | ' ' => some (' ', r)
    | '"' => some ('"', r)
    | '/' => some ('/', r)
    | '\\' => some ('\\', r)
    | 'N' => some ('\u0085', r)
    | '_' => some ('\u00a0', r)
    | 'L' => some ('\u2028', r)
    | 'P' => some ('\u2029', r)
    | _ => none

/-- A gap inside a quoted scalar and what comes after it; a document must not start there. -/
def gap? (s : List Char) : Option (List Char × List Char) :=
  let (gap, r) := s.span isGap
  let lineStart := gap.getLast?.any isBreak
  if lineStart && (["---", "..."].any fun m => m.toList.isPrefixOf r && atGap (r.drop 3)) then none
  else some (gap, r)

/-- A quoted scalar after its opening quote, and the text after its closing one. -/
def quoted? (quote : Char) : Nat → List Char → Option (List Char × List Char)
  | 0, _ => none
  | _, [] => none
  | n + 1, c :: r =>
    if c = quote then
      if quote = '\'' ∧ r.head? = some '\'' then
        (quoted? quote n r.tail).map fun (s, rest) => ('\'' :: s, rest)
      else some ([], r)
    else if isGap c then do
      let (gap, r) ← gap? (c :: r)
      let (s, rest) ← quoted? quote n r
      return (foldGap gap ++ s, rest)
    else if c = '\\' ∧ quote = '"' then
      if r.head?.any isBreak then do
        let (gap, r) ← gap? r
        let (s, rest) ← quoted? quote n r
        return ((lineEnds gap).tail ++ s, rest)
      else do
        let (d, r) ← escape? r
        let (s, rest) ← quoted? quote n r
        return (d :: s, rest)
    else (quoted? quote n r).map fun (s, rest) => (c :: s, rest)

end Stencil.Yaml
