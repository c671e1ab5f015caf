import Stencil.Value.Document
import Stencil.Proofs.Shape.Registering

/-!
# Values of data only

Values without objects and typed arrays, such as those of documents. To register them asks a catalog
for nothing.
-/

namespace Stencil

namespace Value

mutual

/-- Nulls, truth values, numbers and texts, and lists and maps of data. -/
def isData : Value → Bool
  | list items => areData items
  | map entries => areDataEntries entries
  | array _ _ | object _ _ => false
  | _ => true

def areData : List Value → Bool
  | [] => true
  | v :: vs => v.isData && areData vs

def areDataEntries : List (Value × Value) → Bool
  | [] => true
  | (k, v) :: es => k.isData && v.isData && areDataEntries es

end

theorem isData_ofInt (z : Int) : (ofInt z).isData = true := by
  unfold ofInt
  cases int32? z with
  | some v => rfl
  | none => cases int64? z <;> rfl

theorem areDataEntries_texts {l : List (String × Value)} (h : ∀ v ∈ l.map Prod.snd, v.isData = true) :
    areDataEntries (l.map fun e => (str e.1, e.2)) = true := by
  induction l with
  | nil => rfl
  | cons e l ih =>
    rw [List.map_cons, areDataEntries, h e.2 List.mem_cons_self,
      ih fun v hv => h v (List.mem_cons_of_mem _ hv)]
    rfl

mutual

theorem isData_ofDocument : ∀ d : Document, (ofDocument d).isData = true
  | .null | .bool _ | .float _ | .str _ => rfl
  | .int z => isData_ofInt z
  | .list items => areData_ofDocuments items
  | .object fields => by
    refine areDataEntries_texts fun v hv => ?_
    rcases Table.mem_values_setAll hv with hv | hv
    · exact isData_ofFields fields v hv
    · cases hv

theorem areData_ofDocuments : ∀ ds : List Document, areData (ofDocuments ds) = true
  | [] => rfl
  | d :: ds => by
    rw [ofDocuments, areData, isData_ofDocument d, areData_ofDocuments ds]
    rfl

theorem isData_ofFields : ∀ fs : List (String × Document), ∀ v ∈ (ofFields fs).map Prod.snd,
    v.isData = true
  | [], v, hv => by cases hv
  | (k, d) :: fs, v, hv => by
    rcases List.mem_cons.1 hv with rfl | hv
    · exact isData_ofDocument d
    · exact isData_ofFields fs v hv

end

/-! ## Nothing to register -/

theorem objectType?_of_isData {v : Value} (h : v.isData = true) : v.objectType? = none := by
  cases v with
  | object t i => cases h
  | _ => rfl

theorem registered?_of_isData {v : Value} (h : v.isData = true) : v.registered? = none := by
  cases v with
  | object t i => cases h
  | array component items => cases h
  | list items =>
    cases items with
    | nil => rfl
    | cons v vs => exact objectType?_of_isData (Bool.and_eq_true_iff.1 h).1
  | map entries =>
    cases entries with
    | nil => rfl
    | cons e es =>
      exact objectType?_of_isData (Bool.and_eq_true_iff.1 (Bool.and_eq_true_iff.1 h).1).2
  | _ => rfl

end Value

namespace GlobalSource

/-- The source supplies data only. -/
def IsData (source : GlobalSource) : Prop :=
  ∀ name v, source.get? name = some v → v.isData = true

theorem directory_of_isData {source : GlobalSource} (h : source.IsData) (g : Graph) :
    source.directory g = .empty := by
  have ht : source.types = [] := by
    refine List.filterMap_eq_nil_iff.2 fun v hv => ?_
    obtain ⟨name, -, hn⟩ := List.mem_filterMap.1 hv
    exact Value.registered?_of_isData (h name v hn)
  rw [directory, ht]
  rfl

end GlobalSource

theorem Globals.isData_source {globals : Globals} (h : ∀ v ∈ globals.values, v.isData = true) :
    globals.source.IsData := by
  intro name v hv
  obtain ⟨l, r, hl, -⟩ := List.lookup_eq_some_iff.1 hv
  refine h v (List.mem_map.2 ⟨(name, v), ?_, rfl⟩)
  rw [hl]
  exact List.mem_append_right _ List.mem_cons_self

end Stencil
