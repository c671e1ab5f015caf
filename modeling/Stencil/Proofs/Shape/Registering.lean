import Stencil.Proofs.Shape.Serving
import Stencil.Value.Globals

/-!
# Registering the globals

Registering the values of a source asks a catalog for the types of some of them. Afterwards each
record that the globals lead to has its name bound, and where no two such records share a name each
name stands for the record that has it.
-/

namespace Stencil

/-- The type that registering a value asks for. -/
def Value.registered? : Value → Option Descriptor
  | .object t _ => some t
  | .list items => items.head?.bind Value.objectType?
  | .array component _ => if component.isLeaf then none else some component
  | .map entries => (entries.head?.map (·.2)).bind Value.objectType?
  | _ => none

namespace GlobalSource

structure Binds (source : GlobalSource) (name : String) (v : Value) : Prop where
  contains : source.contains name = true
  get? : source.get? name = some v
  listed : name ∈ source.names

def types (source : GlobalSource) : List Descriptor :=
  (source.names.filterMap source.get?).filterMap Value.registered?

/-- The type is reached from one that registering the globals asks for. -/
def LeadsTo (g : Graph) (source : GlobalSource) (t : Descriptor) : Prop :=
  ∃ s ∈ source.types, g.Reach s t

def directory (g : Graph) (source : GlobalSource) : Directory :=
  Directory.bindAll .empty (source.types.flatMap g.preorder)

variable {g : Graph} {source : GlobalSource}

theorem Binds.mem_types {name : String} {v : Value} (h : source.Binds name v) {t : Descriptor}
    (ht : v.registered? = some t) : t ∈ source.types :=
  List.mem_filterMap.2 ⟨v, List.mem_filterMap.2 ⟨name, h.listed, h.get?⟩, ht⟩

theorem LeadsTo.of_mem {t : Descriptor} (h : t ∈ source.types) : source.LeadsTo g t :=
  ⟨t, h, .refl t⟩

theorem mem_flatMap_preorder {t : Descriptor} :
    t ∈ source.types.flatMap g.preorder ↔ source.LeadsTo g t := by
  rw [List.mem_flatMap, LeadsTo]
  simp only [Graph.mem_preorder]

theorem named_directory {t : Descriptor} (h : source.LeadsTo g t) :
    (source.directory g).Named t :=
  Directory.named_bindAll (mem_flatMap_preorder.2 h) .empty

theorem of_get?_directory {name : String} {t : Descriptor}
    (h : (source.directory g).get? name = some t) :
    source.LeadsTo g t ∧ t.isLeaf = false ∧ t.name = name := by
  rcases Directory.get?_bindAll h with h | ⟨hm, h⟩
  · cases h
  · exact ⟨mem_flatMap_preorder.1 hm, h⟩

/-- No two records that the globals lead to share a name. -/
def Distinct (g : Graph) (source : GlobalSource) : Prop :=
  ∀ t u, source.LeadsTo g t → source.LeadsTo g u → t.isLeaf = false → u.isLeaf = false →
    t.name = u.name → t = u

theorem get?_directory (hd : source.Distinct g) {t : Descriptor} (h : source.LeadsTo g t)
    (hl : t.isLeaf = false) : (source.directory g).get? t.name = some t := by
  rcases named_directory h with ht | ht
  · rw [hl] at ht; cases ht
  · obtain ⟨u, hu⟩ := Option.isSome_iff_exists.1 ht
    obtain ⟨hu', hul, hn⟩ := of_get?_directory hu
    rw [hu, hd u t hu' h hul hl hn]

end GlobalSource

theorem Globals.binds_source {globals : Globals} {name : String} {v : Value}
    (h : Table.get? globals name = some v) : globals.source.Binds name v where
  contains := by
    show (Table.get? globals name).isSome = true
    rw [h]; rfl
  get? := h
  listed := by
    obtain ⟨l, r, hl, -⟩ := List.lookup_eq_some_iff.1 h
    show name ∈ (Table.entries globals).map (·.1)
    rw [hl]
    exact List.mem_map.2 ⟨(name, v), List.mem_append_right _ List.mem_cons_self, rfl⟩

namespace Catalog

variable {g : Graph} {c : Catalog}

def shapesOf (g : Graph) (c : Catalog) (ts : List Descriptor) : Catalog :=
  ts.foldl (fun c t => (c.shapeOf g t).2) c

theorem registerValue_snd (v : Value) :
    (c.registerValue g v).2 = c.shapesOf g v.registered?.toList := by
  cases v with
  | object t i => rfl
  | list items =>
    cases items with
    | nil => rfl
    | cons item items => cases item <;> rfl
  | array component items =>
    rw [registerValue, Value.registered?]
    split <;> rfl
  | map entries =>
    cases entries with
    | nil => rfl
    | cons entry entries => obtain ⟨k, v⟩ := entry; cases v <;> rfl
  | _ => rfl

theorem registerGlobals_snd (source : GlobalSource) :
    (c.registerGlobals g source).2 = c.shapesOf g source.types := by
  unfold registerGlobals GlobalSource.types
  generalize source.names.filterMap source.get? = vs
  generalize 0 = n
  induction vs generalizing c n with
  | nil => rfl
  | cons v vs ih =>
    rw [List.foldl_cons, ih, registerValue_snd, List.filterMap_cons]
    cases v.registered? <;> rfl

end Catalog

end Stencil
