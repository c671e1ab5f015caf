import Stencil.Path.Basic

/-!
# Known paths

A set of paths, in their order. What is close to an unknown path is suggested instead of it,
sorted by the dotted forms.
-/

namespace Stencil

/-- Suggested paths are within this edit distance. -/
def pathSuggestionDistance : Nat := 3

structure KnownPaths where
  paths : List Path
  sorted : paths.Pairwise (· < ·)
deriving DecidableEq

namespace KnownPaths

/-- Puts a path at its place, unless it is there. -/
def put (p : Path) : List Path → List Path
  | [] => [p]
  | q :: r => if p < q then p :: q :: r else if p = q then q :: r else q :: put p r

theorem mem_put {p q : Path} {l : List Path} : q ∈ put p l ↔ q = p ∨ q ∈ l := by
  induction l with
  | nil => simp [put]
  | cons d r ih =>
    unfold put
    split
    · simp
    · split
      · rename_i h
        subst h
        simp
      · simp only [List.mem_cons, ih]
        exact ⟨fun h => by rcases h with h | h | h <;> simp [h],
          fun h => by rcases h with h | h | h <;> simp [h]⟩

theorem pairwise_put {p : Path} {l : List Path} (h : l.Pairwise (· < ·)) :
    (put p l).Pairwise (· < ·) := by
  induction l with
  | nil => simp [put]
  | cons d r ih =>
    obtain ⟨hd, hr⟩ := List.pairwise_cons.1 h
    unfold put
    split
    · rename_i hp
      refine List.pairwise_cons.2 ⟨fun q hq => ?_, h⟩
      rcases List.mem_cons.1 hq with rfl | hq
      · exact hp
      · exact Path.lt_trans hp (hd q hq)
    · split
      · exact h
      · rename_i hlt hne
        refine List.pairwise_cons.2 ⟨fun q hq => ?_, ih hr⟩
        rcases mem_put.1 hq with rfl | hq
        · exact Path.lt_of_not_lt hlt hne
        · exact hd q hq

def empty : KnownPaths := ⟨[], .nil⟩

def insert (k : KnownPaths) (p : Path) : KnownPaths := ⟨put p k.paths, pairwise_put k.sorted⟩

def register (k : KnownPaths) (text : String) : KnownPaths := k.insert (.ofText text)

def registerAll (k : KnownPaths) (texts : List String) : KnownPaths := texts.foldl register k

def size (k : KnownPaths) : Nat := k.paths.length

def knows (k : KnownPaths) (text : String) : Bool := k.paths.contains (.ofText text)

/-- Some known path starts with the variable. -/
def hasRoot (k : KnownPaths) (name : String) : Bool := k.paths.any (·.root? == some name)

/-- The known paths close to the text. -/
def suggestions (k : KnownPaths) (text : String) : List Path :=
  (k.paths.filter (·.isSimilarTo (.ofText text) pathSuggestionDistance)).mergeSort
    fun p q => decide (p.dotted ≤ q.dotted)

@[simp] theorem mem_insert {k : KnownPaths} {p q : Path} :
    q ∈ (k.insert p).paths ↔ q = p ∨ q ∈ k.paths := mem_put

end KnownPaths

end Stencil
