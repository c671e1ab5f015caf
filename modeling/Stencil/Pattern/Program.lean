import Stencil.Pattern.Basic

/-!
# Pattern programs

A pattern is searched for by a program. At each character all threads take one step, in the order
in which they are preferred, and of two threads at one place the first stays. So a text is read
once, and a repetition that takes no text ends. Of all matches that start leftmost the first one in
the order of choices counts.
-/

namespace Stencil.Pattern

inductive Instruction
  /-- One character of the set. -/
  | take (members : CharSet)
  | atStart
  | atEnd
  /-- Goes on so many places further. -/
  | jump (ahead : Int)
  /-- Goes on at two places, the first rather than the second. -/
  | fork (preferred other : Int)

open Instruction

/-! ## Programs -/

/-- The two ways on: into what is repeated, and past it. -/
def forkFor (greedy : Bool) (into past : Int) : Instruction :=
  if greedy then fork into past else fork past into

/-- The instructions at most `n` times. -/
def optional (greedy : Bool) (body : List Instruction) : Nat → List Instruction
  | 0 => []
  | n + 1 =>
    let more := optional greedy body n
    forkFor greedy 1 (1 + body.length + more.length) :: body ++ more

/-- The instructions at least once. -/
def again (greedy : Bool) (body : List Instruction) : List Instruction :=
  body ++ [forkFor greedy (-body.length) 1]

/-- The instructions of a pattern; the place behind them is the end of its matches. -/
def instructions : Pattern → List Instruction
  | empty => []
  | set s => [take s]
  | first => [atStart]
  | last => [atEnd]
  | group _ p => p.instructions
  | seq p q => p.instructions ++ q.instructions
  | alt p q =>
    let ps := p.instructions
    let qs := q.instructions
    fork 1 (2 + ps.length) :: ps ++ jump (1 + qs.length) :: qs
  | times least most greedy p =>
    let body := p.instructions
    match least, most with
    | least, some most =>
      (List.replicate least body).flatten ++ optional greedy body (most - least)
    | 0, none => optional greedy (again greedy body) 1
    | least + 1, none => (List.replicate least body).flatten ++ again greedy body

/-- How many instructions there are, told without writing them. -/
def size : Pattern → Nat
  | empty => 0
  | set _ | first | last => 1
  | group _ p => p.size
  | seq p q => p.size + q.size
  | alt p q => p.size + q.size + 2
  | times least most _ p =>
    match most with
    | some most => least * p.size + (most - least) * (p.size + 1)
    | none => max least 1 * p.size + 2

abbrev Program := Array Instruction

def program (p : Pattern) : Program := p.instructions.toArray

/-! ## Searching -/

structure Thread where
  /-- The next instruction. -/
  place : Nat
  /-- How many characters lie before the match. -/
  start : Nat

/-- The places to go on at without taking a character. -/
def ways (program : Program) (atStart atEnd : Bool) (place : Nat) : List Nat :=
  match program[place]? with
  | some .atStart => if atStart then [place + 1] else []
  | some .atEnd => if atEnd then [place + 1] else []
  | some (.jump d) => [(place + d).toNat]
  | some (.fork d e) => [(place + d).toNat, (place + e).toNat]
  | some (.take _) | none => []

/-- For each place, the number of the last round in which a thread came there. -/
abbrev Visits := Array Nat

/-- Follows all threads as far as they come without taking a character, in the given round. Every
place is visited once in a round, by the first thread that comes there. The threads at all visited
places are put in front of `settled`, the latest first. -/
def settle (ways : Nat → List Nat) (round : Nat) : Nat → List Thread → List Thread → Visits →
    List Thread × Visits
  | 0, _, settled, visits => (settled, visits)
  | _, [], settled, visits => (settled, visits)
  | n + 1, t :: threads, settled, visits =>
    if visits.getD t.place round = round then settle ways round n threads settled visits
    else
      let further := (ways t.place).map fun place => { t with place }
      settle ways round n (further ++ threads) (t :: settled) (visits.setIfInBounds t.place round)

/-- The thread after it took the character. -/
def Thread.step? (program : Program) (c : Char) (t : Thread) : Option Thread :=
  match program[t.place]? with
  | some (.take s) => if s.has c.toNat then some { t with place := t.place + 1 } else none
  | _ => none

/-- The start and the end of the match, given the threads after `k` characters and the best match
up to there. A match ends all threads that are less preferred, and after it none starts. -/
def search (program : Program) : Nat → List Thread → Option (Nat × Nat) → Visits → List Char →
    Option (Nat × Nat)
  | k, threads, best, visits, s =>
    let threads := threads ++ (if best.isSome then [] else [⟨0, k⟩])
    let (settled, visits) := settle (ways program (k == 0) s.isEmpty) (k + 1)
      (threads.length + 2 * program.size + 2) threads [] visits
    let (live, ended) := settled.reverse.span (·.place < program.size)
    let best := match ended with
      | t :: _ => some (t.start, k)
      | [] => best
    match s with
    | [] => best
    | c :: r =>
      let threads := live.filterMap (·.step? program c)
      if threads.isEmpty && best.isSome then best
      else search program (k + 1) threads best visits r

/-- The text before the match that counts, and what is matched. -/
def find? (p : Pattern) (s : List Char) : Option (List Char × List Char) :=
  let program := p.program
  (search program 0 [] none (Array.replicate (program.size + 1) 0) s).map fun (i, j) =>
    (s.take i, (s.drop i).take (j - i))

end Stencil.Pattern
