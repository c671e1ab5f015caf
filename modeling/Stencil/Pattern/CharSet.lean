import Stencil.Text.Folding

/-!
# Sets of characters

A set is given by the code points at which membership changes, in rising order: those from the
first on are in, those from the second on are out, and so on. So equal sets are equal lists, and
two sets are put together in one pass over both.
-/

namespace Stencil

structure CharSet where
  changes : List Nat
deriving DecidableEq

namespace CharSet

def empty : CharSet := ⟨[]⟩

/-- All code points. -/
def full : CharSet := ⟨[0, 0x110000]⟩

def range (first last : Nat) : CharSet := if first ≤ last then ⟨[first, last + 1]⟩ else empty

def single (c : Char) : CharSet := range c.toNat c.toNat

def has (s : CharSet) (n : Nat) : Bool := s.changes.countP (· ≤ n) % 2 == 1

/-- There is exactly one member. -/
def isSingle (s : CharSet) : Bool :=
  match s.changes with
  | [first, next] => next == first + 1
  | _ => false

/-- The change at `n` from one membership to another, before further changes. -/
def change (was now : Bool) (n : Nat) (later : List Nat) : List Nat :=
  if was == now then later else n :: later

/-- The changes of a combination, from the point on at which membership is `a` and `b`. -/
def merge (op : Bool → Bool → Bool) (a b : Bool) : List Nat → List Nat → List Nat
  | [], [] => []
  | x :: xs, [] => change (op a b) (op (!a) b) x (merge op (!a) b xs [])
  | [], y :: ys => change (op a b) (op a (!b)) y (merge op a (!b) [] ys)
  | x :: xs, y :: ys =>
    if x < y then change (op a b) (op (!a) b) x (merge op (!a) b xs (y :: ys))
    else if y < x then change (op a b) (op a (!b)) y (merge op a (!b) (x :: xs) ys)
    else change (op a b) (op (!a) (!b)) x (merge op (!a) (!b) xs ys)
termination_by xs ys => xs.length + ys.length

/-- Decides membership by membership in two sets. What is in neither must not come in. -/
def combine (op : Bool → Bool → Bool) (s t : CharSet) : CharSet :=
  ⟨merge op false false s.changes t.changes⟩

def union : CharSet → CharSet → CharSet := combine (· || ·)

def inter : CharSet → CharSet → CharSet := combine (· && ·)

def diff : CharSet → CharSet → CharSet := combine fun a b => a && !b

/-- What is in one of the sets only. -/
def symmDiff : CharSet → CharSet → CharSet := combine Bool.xor

def compl (s : CharSet) : CharSet := full.diff s

def ofRanges (ranges : List (Nat × Nat)) : CharSet :=
  ranges.foldl (fun s r => s.union (range r.1 r.2)) empty

/-- With every member, all characters that differ from it in case only. -/
def foldClosed (s : CharSet) : CharSet :=
  let variants := (Text.casedPoints.filter s.has).flatMap fun n => Text.caseVariants (Char.ofNat n)
  variants.foldl (fun s c => if s.has c.toNat then s else s.union (single c)) s

end CharSet

end Stencil
