import Stencil.Document
import Stencil.Proofs.Table.Keys

/-!
# The parts of a document

What holds of a document throughout holds of it and of all that stands in it. A document whose
fields were put in the order of their names tells the same by name, as long as names differ.
-/

namespace Stencil

def Double.isFinite (x : Double) : Bool := x.magnitude < infinityBits

namespace Document

variable {P : Document → Prop} {d : Document}

theorem ind (null : P null) (bool : ∀ b, P (bool b)) (int : ∀ z, P (int z)) (float : ∀ x, P (float x))
    (str : ∀ s, P (str s)) (list : ∀ items, (∀ d ∈ items, P d) → P (list items))
    (object : ∀ fields, (∀ f ∈ fields, P f.2) → P (object fields)) : ∀ d, P d
  | .null => null
  | .bool b => bool b
  | .int z => int z
  | .float x => float x
  | .str s => str s
  | .list items => list items fun d hd =>
    have := List.sizeOf_lt_of_mem hd
    ind null bool int float str list object d
  | .object fields => object fields fun f hf =>
    have := List.sizeOf_lt_of_mem hf
    have : sizeOf f.2 < sizeOf f := by cases f; simp only [Prod.mk.sizeOf_spec]; omega
    ind null bool int float str list object f.2
termination_by d => sizeOf d

/-- The first document stands in the second, at any depth. -/
inductive Part : Document → Document → Prop
  | whole (d : Document) : Part d d
  | item {items : List Document} {d e : Document} : d ∈ items → Part e d → Part e (list items)
  | field {fields : List (String × Document)} {f : String × Document} {e : Document} :
      f ∈ fields → Part e f.2 → Part e (object fields)

def Throughout (P : Document → Prop) (d : Document) : Prop := ∀ e, Part e d → P e

theorem throughout_list {items : List Document} :
    (list items).Throughout P ↔ P (list items) ∧ ∀ d ∈ items, d.Throughout P := by
  constructor
  · intro h
    exact ⟨h _ (.whole _), fun d hd e he => h e (.item hd he)⟩
  · intro ⟨hp, h⟩ e he
    cases he with
    | whole => exact hp
    | item hd he => exact h _ hd e he

theorem throughout_object {fields : List (String × Document)} :
    (object fields).Throughout P ↔ P (object fields) ∧ ∀ f ∈ fields, f.2.Throughout P := by
  constructor
  · intro h
    exact ⟨h _ (.whole _), fun f hf e he => h e (.field hf he)⟩
  · intro ⟨hp, h⟩ e he
    cases he with
    | whole => exact hp
    | field hf he => exact h _ hf e he

theorem throughout_of_lookup {fields : List (String × Document)} (h : (object fields).Throughout P)
    {n : String} (hd : fields.lookup n = some d) : d.Throughout P :=
  (throughout_object.1 h).2 _ (Table.mem_of_lookup hd)

/-- A document without parts of its own. -/
def isLeaf : Document → Bool
  | null | bool _ | int _ | float _ | str _ => true
  | list _ | object _ => false

theorem throughout_leaf (hd : d.isLeaf = true) : d.Throughout P ↔ P d := by
  constructor
  · intro h
    exact h d (.whole d)
  · intro hp e he
    cases he with
    | whole => exact hp
    | _ => cases hd

def IntegerFits : Document → Prop
  | int z => -0x8000000000000000 ≤ z ∧ z < 0x8000000000000000
  | _ => True

def FieldsInOrder : Document → Prop
  | object fields => fields.Pairwise fun f g => f.1 < g.1
  | _ => True

/-- What JSON can tell: numbers are finite, and the fields of an object differ in their names. -/
def IsJson : Document → Prop
  | float x => x.isFinite = true
  | object fields => (fields.map (·.1)).Nodup
  | _ => True

/-! ## The order of fields -/

mutual

/-- The same document with the fields of all objects in the order of their names; of two fields of
one name the later one counts. -/
def ordered : Document → Document
  | list items => list (orderedItems items)
  | object fields => object (Table.ofList (orderedFields fields)).entries
  | d => d

def orderedItems : List Document → List Document
  | [] => []
  | d :: r => d.ordered :: orderedItems r

def orderedFields : List (String × Document) → List (String × Document)
  | [] => []
  | (k, d) :: r => (k, d.ordered) :: orderedFields r

end

theorem orderedItems_eq (items : List Document) : orderedItems items = items.map ordered := by
  induction items with
  | nil => rfl
  | cons d r ih => rw [orderedItems, ih, List.map_cons]

theorem orderedFields_eq (fields : List (String × Document)) :
    orderedFields fields = fields.map fun f => (f.1, f.2.ordered) := by
  induction fields with
  | nil => rfl
  | cons f r ih => rw [orderedFields, ih, List.map_cons]

theorem ordered_list (items : List Document) : (list items).ordered = list (items.map ordered) := by
  rw [ordered, orderedItems_eq]

theorem ordered_object (fields : List (String × Document)) : (object fields).ordered =
    object ((Table.ofList fields).entries.map fun f => (f.1, f.2.ordered)) := by
  rw [ordered, orderedFields_eq, Table.entries_ofList_map]

theorem ordered_eq (h : d.Throughout FieldsInOrder) : d.ordered = d := by
  induction d using ind with
  | list items ih =>
    rw [ordered_list]
    have hitems := (throughout_list.1 h).2
    exact congrArg list ((List.map_congr_left fun d hd => ih d hd (hitems d hd)).trans (List.map_id _))
  | object fields ih =>
    obtain ⟨hsorted, hfields⟩ := throughout_object.1 h
    rw [ordered_object, Table.entries_ofList hsorted]
    refine congrArg object ((List.map_congr_left fun f hf => ?_).trans (List.map_id _))
    exact Prod.ext rfl (ih f hf (hfields f hf))
  | _ => rfl

/-- Put in order, an object has as many fields and tells the same by each name. -/
theorem ordered_object_of_nodup {fields : List (String × Document)} (h : (fields.map (·.1)).Nodup) :
    ∃ fs, (object fields).ordered = object fs ∧ fs.length = fields.length ∧
      ∀ n, fs.lookup n = (fields.lookup n).map ordered := by
  refine ⟨_, ordered_object fields, ?_, fun n => ?_⟩
  · rw [List.length_map, Table.length_entries_ofList h]
  · rw [Table.lookup_map, ← Table.get?_ofList_of_nodup h]
    rfl

end Document

end Stencil
