import Stencil.Pattern.CharSet

/-!
# Patterns

Regular patterns. Alternatives are tried in their order, and more repetitions before fewer unless
the pattern asks for few, so the form of a pattern tells which of several matches counts.

Patterns are built in a flat form: the items of a sequence are no sequences, those of a choice no
choices, and alternatives that start alike share their start. To share it moves the choice behind
it, which shows in what counts as the first match.
-/

namespace Stencil

inductive Pattern
  | empty
  | set (members : CharSet)
  /-- The start of the text. -/
  | first
  /-- The end of the text. -/
  | last
  /-- A bracket with a number, which no other bracket has. -/
  | group (number : Nat) (p : Pattern)
  | seq (p q : Pattern)
  | alt (p q : Pattern)
  | times (least : Nat) (most : Option Nat) (greedy : Bool) (p : Pattern)
deriving DecidableEq

namespace Pattern

/-! ## Sequences -/

/-- The items of a sequence. -/
def items : Pattern → List Pattern
  | empty => []
  | seq p q => p.items ++ q.items
  | p => [p]

def ofItems : List Pattern → Pattern
  | [] => empty
  | [p] => p
  | p :: ps => seq p (ofItems ps)

/-- The patterns one after the other. -/
def sequence (ps : List Pattern) : Pattern := ofItems (ps.flatMap items)

/-! ## Choices -/

/-- The alternatives of a choice. -/
def alternatives : Pattern → List Pattern
  | alt p q => p.alternatives ++ q.alternatives
  | p => [p]

def ofAlternatives : List Pattern → Pattern
  | [] => set .empty
  | [p] => p
  | p :: ps => alt p (ofAlternatives ps)

def members? : Pattern → Option CharSet
  | set s => some s
  | _ => none

/-- Alternatives that are all single characters, or all other sets, are one set. -/
def joined? (ps : List Pattern) : Option CharSet := do
  let sets ← ps.mapM members?
  if sets.all (·.isSingle) || sets.all (!·.isSingle) then some (sets.foldl .union .empty) else none

/-- The alternatives as they stand, or their one set. -/
def ofJoined (ps : List Pattern) : Pattern :=
  match joined? ps with
  | some s => set s
  | none => ofAlternatives ps

def sharedStart (ps qs : List Pattern) : List Pattern :=
  ((ps.zip qs).takeWhile fun (p, q) => p = q).map (·.1)

/-- The items with which all of the lists start, when each is a sequence. -/
def startOfAll : List (List Pattern) → List Pattern
  | [] => []
  | ps :: rest =>
    if (ps :: rest).all (1 < ·.length) then rest.foldl sharedStart ps else []

/-- One of the patterns, the earlier rather than the later. -/
def choice (ps : List Pattern) : Pattern :=
  let ps := ps.flatMap alternatives
  match ps, joined? ps with
  | [p], _ => p
  | _, some s => set s
  | ps, none =>
    let start := startOfAll (ps.map items)
    if start.isEmpty then ofAlternatives ps
    else
      let rests := ps.map fun p => ofItems (p.items.drop start.length)
      sequence (start ++ [ofJoined (rests.flatMap alternatives)])

/-! ## Repetitions -/

/-- Something may stand in a match. -/
def takesText : Pattern → Bool
  | empty | first | last => false
  | set _ => true
  | group _ p | times _ _ _ p => p.takesText
  | seq p q | alt p q => p.takesText || q.takesText

/-- The pattern from `least` up to `most` times. Where it takes no text once is enough. -/
def repeated (least : Nat) (most : Option Nat) (greedy : Bool) (p : Pattern) : Pattern :=
  let (least, most) :=
    if p.takesText then (least, most) else (min least 1, some (min (most.getD 1) 1))
  match least, most with
  | 0, some 0 => empty
  | 1, some 1 => p
  | least, most => times least most greedy p

end Pattern

end Stencil
