import Mathlib.Data.Finset.Card
import Mathlib.Data.Finset.Dedup
import Stencil.Proofs.Path.Spelling
import Stencil.Path.Known

/-!
# Registered paths

Whatever was registered, one text at a time or many, in any order and any spelling: what is known
are the lists of segments of the registered texts, each of them once.
-/

namespace Stencil

inductive Registration
  | one (text : String)
  | all (texts : List String)

def Registration.texts : Registration → List String
  | one text => [text]
  | all texts => texts

theorem Path.cmp_eq_eq_iff {p q : Path} : p.cmp q = .eq ↔ p = q := by
  unfold Path.cmp
  by_cases h : p < q
  · have hne : p ≠ q := by
      intro e
      exact p.lt_irrefl (e ▸ h)
    simp [h, hne]
  · by_cases he : p = q <;> simp [h, he, q.lt_irrefl]

namespace KnownPaths

variable {k : KnownPaths} {p : Path}

def perform (k : KnownPaths) : Registration → KnownPaths
  | .one text => k.register text
  | .all texts => k.registerAll texts

def ofRegistrations (rs : List Registration) : KnownPaths := rs.foldl perform empty

/-! ## The set of known paths -/

theorem mem_register {text : String} :
    p ∈ (k.register text).paths ↔ p = Path.ofText text ∨ p ∈ k.paths := mem_insert

theorem mem_registerAll {texts : List String} :
    p ∈ (k.registerAll texts).paths ↔ (∃ u ∈ texts, p = Path.ofText u) ∨ p ∈ k.paths := by
  induction texts generalizing k with
  | nil => simp [registerAll]
  | cons u texts ih =>
    have h : k.registerAll (u :: texts) = (k.register u).registerAll texts := rfl
    rw [h, ih, mem_register, ← or_assoc, or_comm (a := ∃ u ∈ texts, p = Path.ofText u)]
    simp

theorem mem_perform {r : Registration} :
    p ∈ (k.perform r).paths ↔ (∃ u ∈ r.texts, p = Path.ofText u) ∨ p ∈ k.paths := by
  cases r with
  | one text =>
    rw [perform, mem_register]
    simp [Registration.texts]
  | all texts => exact mem_registerAll

theorem mem_foldl_perform {rs : List Registration} : p ∈ (rs.foldl perform k).paths ↔
    (∃ u ∈ rs.flatMap Registration.texts, p = Path.ofText u) ∨ p ∈ k.paths := by
  induction rs generalizing k with
  | nil => simp
  | cons r rs ih =>
    rw [List.foldl_cons, ih, mem_perform, ← or_assoc, List.flatMap_cons]
    simp only [List.mem_append, or_and_right, exists_or]
    rw [or_comm (a := ∃ u, u ∈ rs.flatMap Registration.texts ∧ p = Path.ofText u)]

/-- The known paths are those of the registered texts. -/
theorem mem_ofRegistrations {rs : List Registration} : p ∈ (ofRegistrations rs).paths ↔
    ∃ u ∈ rs.flatMap Registration.texts, p = Path.ofText u := by
  have h : p ∉ empty.paths := by simp [empty]
  rw [ofRegistrations, mem_foldl_perform, or_iff_left h]

/-- One of the registered texts is a spelling of the same path. -/
def IsRegistered (rs : List Registration) (text : String) : Prop :=
  ∃ u ∈ rs.flatMap Registration.texts, Path.ofText u = Path.ofText text

instance (rs : List Registration) (text : String) : Decidable (IsRegistered rs text) :=
  List.decidableBEx _ _

theorem nodup_paths (k : KnownPaths) : k.paths.Nodup := by
  refine k.sorted.imp ?_
  intro p q h e
  exact p.lt_irrefl (e ▸ h)

theorem knows_iff {text : String} : k.knows text = true ↔ Path.ofText text ∈ k.paths := by
  simp [knows]

/-- A search by the order finds what is known. -/
theorem knows_iff_cmp {text : String} :
    k.knows text = true ↔ ∃ p ∈ k.paths, p.cmp (Path.ofText text) = .eq := by
  rw [knows_iff]
  simp only [Path.cmp_eq_eq_iff, exists_eq_right]

theorem knows_ofRegistrations (rs : List Registration) (text : String) :
    (ofRegistrations rs).knows text = decide (IsRegistered rs text) := by
  rw [Bool.eq_iff_iff, knows_iff, mem_ofRegistrations, decide_eq_true_eq]
  simp only [IsRegistered, eq_comm]

theorem hasRoot_iff {name : String} : k.hasRoot name = true ↔ ∃ ws, ⟨name :: ws⟩ ∈ k.paths := by
  unfold hasRoot Path.root?
  simp only [List.any_eq_true, beq_iff_eq, List.head?_eq_some_iff]
  constructor
  · intro ⟨⟨segments⟩, hp, ws, h⟩
    exact ⟨ws, h ▸ hp⟩
  · intro ⟨ws, hp⟩
    exact ⟨_, hp, ws, rfl⟩

theorem size_eq_card (k : KnownPaths) : k.size = (k.paths.map Path.segments).toFinset.card := by
  have hn : (k.paths.map Path.segments).Nodup := by
    refine k.nodup_paths.map ?_
    intro p q h
    exact congrArg Path.mk h
  rw [List.toFinset_card_of_nodup hn, List.length_map, size]

/-- What is known, how many, and which variables have known paths is told by the lists of segments
that the registered texts consist of, by the order of paths as by their equality, and texts of the
same segments are the same to all requests. -/
theorem knows_registered (rs : List Registration) :
    let k := ofRegistrations rs
    let texts := rs.flatMap Registration.texts
    (∀ t ws, Path.ofText t = ⟨ws⟩ ↔ Path.Consists t.toList ws) ∧
    (∀ t, k.knows t = true ↔
      ∃ u ∈ texts, ∃ ws, Path.Consists u.toList ws ∧ Path.Consists t.toList ws) ∧
    (∀ t, k.knows t = true ↔ ∃ p ∈ k.paths, p.cmp (Path.ofText t) = .eq) ∧
    (∃ lists : Finset (List String),
      (∀ ws, ws ∈ lists ↔ ∃ u ∈ texts, Path.Consists u.toList ws) ∧ k.size = lists.card) ∧
    (∀ n, k.hasRoot n = true ↔ ∃ u ∈ texts, ∃ ws, Path.Consists u.toList (n :: ws)) ∧
    (∀ t, Path.ofText (Path.ofText t).dotted = Path.ofText t) ∧
    ∀ t u ws, Path.Consists t.toList ws → Path.Consists u.toList ws →
      k.register t = k.register u ∧ k.knows t = k.knows u ∧ k.suggestions t = k.suggestions u := by
  intro k texts
  have hmem : ∀ ws, ⟨ws⟩ ∈ k.paths ↔ ∃ u ∈ texts, Path.Consists u.toList ws := by
    intro ws
    rw [mem_ofRegistrations]
    simp only [eq_comm (a := Path.mk ws), Path.ofText_eq_iff]
    rfl
  refine ⟨fun t ws => Path.ofText_eq_iff, fun t => ?known, fun t => knows_iff_cmp,
    ⟨_, fun ws => ?lists, size_eq_card k⟩, fun n => ?root, Path.ofText_dotted_ofText,
    fun t u ws ht hu => ?same⟩
  case known =>
    rw [knows_ofRegistrations, decide_eq_true_eq]
    simp only [IsRegistered, Path.ofText_eq_ofText_iff]
    rfl
  case lists =>
    rw [List.mem_toFinset, List.mem_map, ← hmem]
    exact ⟨fun ⟨p, hp, e⟩ => e ▸ hp, fun h => ⟨_, h, rfl⟩⟩
  case root =>
    rw [hasRoot_iff]
    simp only [hmem]
    exact ⟨fun ⟨ws, u, hu, h⟩ => ⟨u, hu, ws, h⟩, fun ⟨u, hu, ws, h⟩ => ⟨ws, u, hu, h⟩⟩
  case same =>
    have h : Path.ofText t = Path.ofText u := by rw [Path.ofText_eq_iff.2 ht, Path.ofText_eq_iff.2 hu]
    unfold register knows suggestions
    rw [h]
    exact ⟨rfl, rfl, rfl⟩

/-- Two spellings of one path, a path of no segments, and a bracket that nothing opens. -/
theorem knows_registered_items :
    let k := ofRegistrations [.all ["order.items[0]", ".."], .one "order..items.0", .one "user]"]
    k.size = 3 ∧ k.hasRoot "user" = true ∧ k.hasRoot "items" = false ∧
      Path.Consists "[order]items.0".toList ["order", "items", "0"] ∧
      k.knows "[order]items.0" = k.knows "order.items[0]" ∧ k.knows "[order]items.0" = true := by
  intro k
  have hread : Path.ofText "[order]items.0" = ⟨["order", "items", "0"]⟩ := by decide
  have hread' : Path.ofText "order.items[0]" = ⟨["order", "items", "0"]⟩ := by decide
  obtain ⟨hpath, hknows, -, -, hroot, -, hsame⟩ := knows_registered
    [.all ["order.items[0]", ".."], .one "order..items.0", .one "user]"]
  have ht := (hpath _ _).1 hread
  have hu := (hpath _ _).1 hread'
  have hitems : k.hasRoot "items" = false := by decide
  refine ⟨by decide, (hroot "user").2 ?_, hitems, ht, (hsame _ _ _ ht hu).2.1, (hknows _).2 ?_⟩
  · exact ⟨"user]", by simp [Registration.texts], [], (hpath _ _).1 (by decide)⟩
  · exact ⟨"order.items[0]", by simp [Registration.texts], _, hu, ht⟩

end KnownPaths

end Stencil
