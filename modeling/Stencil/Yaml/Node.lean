import Stencil.Yaml.Token

/-!
# The nodes of a settings text

Tokens are read as a tree of scalars, sequences and mappings. What is missing where a node may
stand is an empty plain scalar. A text holds one document or none.
-/

namespace Stencil.Yaml

inductive Node
  | scalar (isPlain : Bool) (text : String)
  | sequence (items : List Node)
  | mapping (entries : List (Node × Node))

namespace Node

def blank : Node := scalar true ""

/-- The next token is one of these, or there is none. -/
def endsAt (stops : List Token) (ts : List Token) : Bool :=
  match ts with
  | [] => true
  | t :: _ => stops.contains t

mutual

/-- A node and the tokens after it. A block may start in a block only; as the value of a mapping a
sequence may stand there without being indented. -/
def read? : Nat → Bool → Bool → List Token → Option (Node × List Token)
  | 0, _, _, _ => none
  | n + 1, block, bare, ts =>
    match ts with
    | [] => none
    | .entry :: _ =>
      if bare then (bareItems? n ts).map fun (items, ts) => (sequence items, ts) else none
    | .scalar isPlain text :: ts => some (scalar isPlain text, ts)
    | .flowSequenceStart :: ts =>
      (flowItems? n true ts).map fun (items, ts) => (sequence items, ts)
    | .flowMappingStart :: ts =>
      (flowEntries? n true ts).map fun (entries, ts) => (mapping entries, ts)
    | .sequenceStart :: ts =>
      if block then (items? n ts).map fun (items, ts) => (sequence items, ts) else none
    | .mappingStart :: ts =>
      if block then (entries? n ts).map fun (entries, ts) => (mapping entries, ts) else none
    | _ => none

/-- A node, or the empty scalar where one of the stops comes first. -/
def orBlank? : Nat → Bool → Bool → List Token → List Token → Option (Node × List Token)
  | 0, _, _, _, _ => none
  | n + 1, block, bare, stops, ts =>
    if endsAt stops ts then some (blank, ts) else read? n block bare ts

def items? : Nat → List Token → Option (List Node × List Token)
  | 0, _ => none
  | n + 1, ts =>
    match ts with
    | .blockEnd :: ts => some ([], ts)
    | .entry :: ts => do
      let (item, ts) ← orBlank? n true false [.entry, .blockEnd] ts
      let (items, ts) ← items? n ts
      return (item :: items, ts)
    | _ => none

def bareItems? : Nat → List Token → Option (List Node × List Token)
  | 0, _ => none
  | n + 1, ts =>
    match ts with
    | .entry :: ts => do
      let (item, ts) ← orBlank? n true false [.entry, .key, .value, .blockEnd] ts
      let (items, ts) ← bareItems? n ts
      return (item :: items, ts)
    | ts => some ([], ts)

def entries? : Nat → List Token → Option (List (Node × Node) × List Token)
  | 0, _ => none
  | n + 1, ts =>
    match ts with
    | .blockEnd :: ts => some ([], ts)
    | .key :: ts => do
      let stops := [.key, .value, .blockEnd]
      let (key, ts) ← orBlank? n true true stops ts
      let (value, ts) ← match ts with
        | .value :: ts => orBlank? n true true stops ts
        | ts => some (blank, ts)
      let (entries, ts) ← entries? n ts
      return ((key, value) :: entries, ts)
    | _ => none

def flowItems? : Nat → Bool → List Token → Option (List Node × List Token)
  | 0, _, _ => none
  | n + 1, isFirst, ts =>
    match ts with
    | .flowSequenceEnd :: ts => some ([], ts)
    | ts => do
      let ts ← if isFirst then some ts else match ts with
        | .flowEntry :: ts => some ts
        | _ => none
      match ts with
      | .flowSequenceEnd :: ts => return ([], ts)
      | .key :: ts =>
        let (entry, ts) ← flowEntry? n .flowSequenceEnd ts
        let (items, ts) ← flowItems? n false ts
        return (mapping [entry] :: items, ts)
      | ts =>
        let (item, ts) ← read? n false false ts
        let (items, ts) ← flowItems? n false ts
        return (item :: items, ts)

/-- A key and its value in a flow collection that ends with `close`. In a sequence the mark that
comes where the key should be is lost with it. -/
def flowEntry? : Nat → Token → List Token → Option ((Node × Node) × List Token)
  | 0, _, _ => none
  | n + 1, close, ts => do
    let (key, ts) ←
      if close == .flowSequenceEnd && endsAt [.value, .flowEntry, close] ts then
        some (blank, ts.tail)
      else orBlank? n false false [.value, .flowEntry, close] ts
    let (value, ts) ← match ts with
      | .value :: ts => orBlank? n false false [.flowEntry, close] ts
      | ts => some (blank, ts)
    return ((key, value), ts)

def flowEntries? : Nat → Bool → List Token → Option (List (Node × Node) × List Token)
  | 0, _, _ => none
  | n + 1, isFirst, ts =>
    match ts with
    | .flowMappingEnd :: ts => some ([], ts)
    | ts => do
      let ts ← if isFirst then some ts else match ts with
        | .flowEntry :: ts => some ts
        | _ => none
      match ts with
      | .flowMappingEnd :: ts => return ([], ts)
      | .key :: ts =>
        let (entry, ts) ← flowEntry? n .flowMappingEnd ts
        let (entries, ts) ← flowEntries? n false ts
        return (entry :: entries, ts)
      | ts =>
        let (key, ts) ← read? n false false ts
        let (entries, ts) ← flowEntries? n false ts
        return ((key, blank) :: entries, ts)

end

def isDocumentEnd (t : Token) : Bool := t == .documentEnd

/-- The only document of a text, if the text is one: `some none` when there is no document. -/
def ofTokens? (tokens : List Token) : Option (Option Node) :=
  let fuel := 4 * tokens.length + 8
  match tokens with
  | [] => some none
  | .documentStart :: ts => do
    let (node, ts) ← orBlank? fuel true false [.documentStart, .documentEnd] ts
    if (ts.dropWhile isDocumentEnd).isEmpty then some (some node) else none
  | ts => do
    let (node, ts) ← read? fuel true false ts
    if (ts.dropWhile isDocumentEnd).isEmpty then some (some node) else none

def ofText? (text : String) : Option (Option Node) :=
  (Token.ofText? text.toList).bind ofTokens?

end Node

end Stencil.Yaml
