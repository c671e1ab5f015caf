import Mathlib.Data.List.Forall2
import Stencil.Value.Document
import Stencil.Proofs.Document.Parts

/-!
# Documents told back by their values

The document that a value was made of is found again in the value, at every depth, as long as its
integers fit 64 bits. Of the values in which it is found, it is made into the one that has every
integer as narrow as it can be and every map in the order of its keys.
-/

namespace Stencil

/-! ## Values -/

namespace Value

variable {P : Value → Prop} {v : Value}

theorem ind (null : P null) (bool : ∀ b, P (bool b)) (int : ∀ z, P (int z)) (long : ∀ z, P (long z))
    (float : ∀ x, P (float x)) (str : ∀ s, P (str s)) (list : ∀ items, (∀ v ∈ items, P v) → P (list items))
    (array : ∀ component items, P (array component items))
    (map : ∀ entries, (∀ e ∈ entries, P e.2) → P (map entries)) (object : ∀ t i, P (object t i)) :
    ∀ v, P v
  | .null => null
  | .bool b => bool b
  | .int z => int z
  | .long z => long z
  | .float x => float x
  | .str s => str s
  | .list items => list items fun v hv =>
    have := List.sizeOf_lt_of_mem hv
    ind null bool int long float str list array map object v
  | .array component items => array component items
  | .map entries => map entries fun e he =>
    have := List.sizeOf_lt_of_mem he
    have : sizeOf e.2 < sizeOf e := by cases e; simp only [Prod.mk.sizeOf_spec]; omega
    ind null bool int long float str list array map object e.2
  | .object t i => object t i
termination_by v => sizeOf v

inductive Part : Value → Value → Prop
  | whole (v : Value) : Part v v
  | item {items : List Value} {v w : Value} : v ∈ items → Part w v → Part w (list items)
  | element {component : Descriptor} {items : List Value} {v w : Value} :
      v ∈ items → Part w v → Part w (array component items)
  | key {entries : List (Value × Value)} {e : Value × Value} {w : Value} :
      e ∈ entries → Part w e.1 → Part w (map entries)
  | entry {entries : List (Value × Value)} {e : Value × Value} {w : Value} :
      e ∈ entries → Part w e.2 → Part w (map entries)

def Throughout (P : Value → Prop) (v : Value) : Prop := ∀ w, Part w v → P w

theorem throughout_list {items : List Value} :
    (list items).Throughout P ↔ P (list items) ∧ ∀ v ∈ items, v.Throughout P := by
  constructor
  · intro h
    exact ⟨h _ (.whole _), fun v hv w hw => h w (.item hv hw)⟩
  · intro ⟨hp, h⟩ w hw
    cases hw with
    | whole => exact hp
    | item hv hw => exact h _ hv w hw

theorem throughout_map {entries : List (Value × Value)} : (map entries).Throughout P ↔
    P (map entries) ∧ ∀ e ∈ entries, e.1.Throughout P ∧ e.2.Throughout P := by
  constructor
  · intro h
    exact ⟨h _ (.whole _), fun e he => ⟨fun w hw => h w (.key he hw), fun w hw => h w (.entry he hw)⟩⟩
  · intro ⟨hp, h⟩ w hw
    cases hw with
    | whole => exact hp
    | key he hw => exact (h _ he).1 w hw
    | entry he hw => exact (h _ he).2 w hw

def isLeaf : Value → Bool
  | null | bool _ | int _ | long _ | float _ | str _ | object _ _ => true
  | list _ | array _ _ | map _ => false

theorem throughout_leaf (hv : v.isLeaf = true) : v.Throughout P ↔ P v := by
  constructor
  · intro h
    exact h v (.whole v)
  · intro hp w hw
    cases hw with
    | whole => exact hp
    | _ => cases hv

/-- The entries of a map whose keys are texts. -/
def textEntries (fields : List (String × Value)) : List (Value × Value) :=
  fields.map fun f => (str f.1, f.2)

/-- An integer of 64 bits does not fit 32, and a map has texts as keys, in their order. -/
def Tidy : Value → Prop
  | long z => ¬ (-0x80000000 ≤ z.toInt ∧ z.toInt < 0x80000000)
  | map entries => ∃ fields, entries = textEntries fields ∧ fields.Pairwise fun f g => f.1 < g.1
  | _ => True

mutual

/-- The document that a value shows, if it has no parts but those of documents. -/
def document? : Value → Option Document
  | null => some .null
  | bool b => some (.bool b)
  | int z => some (.int z.toInt)
  | long z => some (.int z.toInt)
  | float x => some (.float x)
  | str s => some (.str s)
  | list items => (documents? items).map .list
  | map entries => (fields? entries).map .object
  | array _ _ | object _ _ => none

def documents? : List Value → Option (List Document)
  | [] => some []
  | v :: r => v.document?.bind fun d => (documents? r).map (d :: ·)

def fields? : List (Value × Value) → Option (List (String × Document))
  | [] => some []
  | (str k, v) :: r => v.document?.bind fun d => (fields? r).map ((k, d) :: ·)
  | _ :: _ => none

end

theorem documents?_eq_some_iff {items : List Value} {ds : List Document} : documents? items = some ds ↔
    List.Forall₂ (fun v d => v.document? = some d) items ds := by
  induction items generalizing ds with
  | nil => simp [documents?, eq_comm]
  | cons v r ih =>
    rw [documents?, List.forall₂_cons_left_iff]
    simp only [Option.bind_eq_some_iff, Option.map_eq_some_iff, ih]
    exact ⟨fun ⟨d, hv, r', hr, e⟩ => ⟨d, r', hv, hr, e.symm⟩, fun ⟨d, r', hv, hr, e⟩ => ⟨d, hv, r', hr, e.symm⟩⟩

theorem fields?_textEntries {fields : List (String × Value)} {fs : List (String × Document)} :
    fields? (textEntries fields) = some fs ↔
      List.Forall₂ (fun e f => e.1 = f.1 ∧ e.2.document? = some f.2) fields fs := by
  induction fields generalizing fs with
  | nil => simp [textEntries, fields?, eq_comm]
  | cons e r ih =>
    have h : textEntries (e :: r) = (str e.1, e.2) :: textEntries r := rfl
    rw [h, fields?, List.forall₂_cons_left_iff]
    simp only [Option.bind_eq_some_iff, Option.map_eq_some_iff, ih]
    constructor
    · intro ⟨d, hv, r', hr, he⟩
      exact ⟨(e.1, d), r', ⟨rfl, hv⟩, hr, he.symm⟩
    · intro ⟨(k, d), r', ⟨hk, hv⟩, hr, he⟩
      rw [he]
      exact ⟨d, hv, r', hr, congrArg (fun k => (k, d) :: r') hk⟩

/-! ## Values of documents -/

theorem ofDocuments_eq (ds : List Document) : ofDocuments ds = ds.map ofDocument := by
  induction ds with
  | nil => rfl
  | cons d r ih => rw [ofDocuments, ih, List.map_cons]

theorem ofFields_eq (fields : List (String × Document)) :
    ofFields fields = fields.map fun f => (f.1, ofDocument f.2) := by
  induction fields with
  | nil => rfl
  | cons f r ih => rw [ofFields, ih, List.map_cons]

theorem ofDocument_object (fields : List (String × Document)) : ofDocument (.object fields) =
    map (textEntries ((Table.ofList fields).entries.map fun f => (f.1, ofDocument f.2))) := by
  rw [ofDocument, ofFields_eq, Table.entries_ofList_map]
  rfl

/-- The value shows the document that it was made of. -/
theorem document?_ofDocument {d : Document} (h : d.Throughout Document.IntegerFits) :
    (ofDocument d).document? = some d.ordered := by
  induction d using Document.ind with
  | int z =>
    rw [ofDocument, ofInt]
    cases h32 : int32? z with
    | some w => exact congrArg (fun z => some (Document.int z)) (toInt_of_int32? h32)
    | none =>
      have h64 : int64? z = some (.ofInt z) := if_pos (h _ (.whole _))
      rw [h64]
      exact congrArg (fun z => some (Document.int z)) (toInt_of_int64? h64)
  | list items ih =>
    have hitems : documents? (items.map ofDocument) = some (items.map Document.ordered) := by
      rw [documents?_eq_some_iff, List.forall₂_map_left_iff, List.forall₂_map_right_iff,
        List.forall₂_same]
      exact fun d hd => ih d hd ((Document.throughout_list.1 h).2 d hd)
    rw [ofDocument, ofDocuments_eq, document?, hitems, Document.ordered_list]
    rfl
  | object fields ih =>
    have hfields : fields? (textEntries ((Table.ofList fields).entries.map fun f => (f.1, ofDocument f.2))) =
        some ((Table.ofList fields).entries.map fun f => (f.1, f.2.ordered)) := by
      rw [fields?_textEntries, List.forall₂_map_left_iff, List.forall₂_map_right_iff, List.forall₂_same]
      intro f hf
      have hf := Table.mem_of_mem_ofList hf
      exact ⟨rfl, ih f hf ((Document.throughout_object.1 h).2 f hf)⟩
    rw [ofDocument_object, document?, hfields, Document.ordered_object]
    rfl
  | _ => rfl

theorem tidy_ofDocument (d : Document) : (ofDocument d).Throughout Tidy := by
  induction d using Document.ind with
  | int z =>
    rw [ofDocument, ofInt]
    cases h32 : int32? z with
    | some w => exact (throughout_leaf rfl).2 trivial
    | none =>
      cases h64 : int64? z with
      | some w =>
        refine (throughout_leaf rfl).2 ?_
        show ¬ (-0x80000000 ≤ w.toInt ∧ w.toInt < 0x80000000)
        rw [toInt_of_int64? h64]
        exact int32?_eq_none_iff.1 h32
      | none => exact (throughout_leaf rfl).2 trivial
  | list items ih =>
    rw [ofDocument, ofDocuments_eq, throughout_list]
    exact ⟨trivial, List.forall_mem_map.2 ih⟩
  | object fields ih =>
    rw [ofDocument_object, throughout_map]
    refine ⟨⟨_, rfl, List.pairwise_map.2 (Table.ofList fields).sorted⟩, ?_⟩
    rw [textEntries, List.forall_mem_map, List.forall_mem_map]
    intro f hf
    exact ⟨(throughout_leaf rfl).2 trivial, ih f (Table.mem_of_mem_ofList hf)⟩
  | _ =>
    rw [ofDocument]
    exact (throughout_leaf rfl).2 trivial

theorem eq_map_of_forall₂ {α β : Type} {R : α → β → Prop} {f : β → α} {as : List α} {bs : List β}
    (h : List.Forall₂ R as bs) (hR : ∀ a ∈ as, ∀ b, R a b → a = f b) : as = bs.map f := by
  induction h with
  | nil => rfl
  | cons hab _ ih =>
    rw [List.map_cons, ← hR _ List.mem_cons_self _ hab, ← ih fun a ha => hR a (List.mem_cons_of_mem _ ha)]

/-- Of the values that show a document only one is tidy. -/
theorem eq_ofDocument (hv : v.Throughout Tidy) {d : Document} (h : v.document? = some d) :
    v = ofDocument d := by
  induction v using ind generalizing d with
  | int z =>
    cases h
    rw [ofDocument, ofInt, int32?_toInt]
    rfl
  | long z =>
    cases h
    rw [ofDocument, ofInt, int32?_eq_none_iff.2 (hv _ (.whole _)), int64?_toInt]
    rfl
  | list items ih =>
    obtain ⟨ds, hds, rfl⟩ := Option.map_eq_some_iff.1 h
    rw [ofDocument, ofDocuments_eq]
    refine congrArg list (eq_map_of_forall₂ (documents?_eq_some_iff.1 hds) fun v hmem d hd => ?_)
    exact ih v hmem ((throughout_list.1 hv).2 v hmem) hd
  | map entries ih =>
    obtain ⟨fs, hfs, rfl⟩ := Option.map_eq_some_iff.1 h
    obtain ⟨⟨fields, rfl, hs⟩, hentries⟩ := throughout_map.1 hv
    have hfields : fields = fs.map fun f => (f.1, ofDocument f.2) := by
      refine eq_map_of_forall₂ (fields?_textEntries.1 hfs) fun e hmem f hef => ?_
      have he : (str e.1, e.2) ∈ textEntries fields := List.mem_map_of_mem hmem
      exact Prod.ext hef.1 (ih _ he (hentries _ he).2 hef.2)
    have hfs : fs.Pairwise fun f g => f.1 < g.1 := by rwa [hfields, List.pairwise_map] at hs
    rw [ofDocument_object, Table.entries_ofList hfs, ← hfields]
  | array component items => cases h
  | object t i => cases h
  | _ =>
    cases h
    rfl

/-- A document whose integers fit 64 bits is found in its value, but for the order of fields, and the
value is the one tidy value in which it is found. -/
theorem json_kept {d : Document} (h : d.Throughout Document.IntegerFits) :
    (ofDocument d).document? = some d.ordered ∧
    (d.Throughout Document.FieldsInOrder → d.ordered = d) ∧
    ∀ v, v = ofDocument d ↔ v.document? = some d.ordered ∧ v.Throughout Tidy := by
  have hd := document?_ofDocument h
  have ht := tidy_ofDocument d
  refine ⟨hd, Document.ordered_eq, fun v => ⟨?_, ?_⟩⟩
  · intro hv
    rw [hv]
    exact ⟨hd, ht⟩
  · intro ⟨hv, htidy⟩
    rw [eq_ofDocument htidy hv, ← eq_ofDocument ht hd]

end Value

/-- The least integer of 64 bits and not 32, a number that is whole but a float, and two fields out of
order. -/
theorem Value.json_kept_rows :
    let one : Double := ⟨0x3FF0000000000000⟩
    let d : Document := .object [("rows", .list [.int 2147483648, .float one]), ("count", .int 2147483647)]
    (ofDocument d).document? =
      some (.object [("count", .int 2147483647), ("rows", .list [.int 2147483648, .float one])]) ∧
    ofDocument d =
      map [(str "count", int 2147483647), (str "rows", list [long 2147483648, float one])] := by
  intro one d
  have h : d.Throughout Document.IntegerFits := by
    simp only [d, Document.throughout_object, Document.throughout_list, List.forall_mem_cons]
    iterate 3 rw [Document.throughout_leaf (by rfl)]
    simp [Document.IntegerFits]
  have hd : d.ordered =
      .object [("count", .int 2147483647), ("rows", .list [.int 2147483648, .float one])] := by
    simp only [d, Document.ordered, Document.orderedItems, Document.orderedFields, Table.ofList, Table.setAll,
      List.foldl, Table.set, Table.empty, Table.put, String.reduceLT, if_true]
  obtain ⟨hback, -, hunique⟩ := json_kept h
  refine ⟨hd ▸ hback, ((hunique _).2 ⟨?_, ?_⟩).symm⟩
  · rw [hd]
    rfl
  · rw [throughout_map]
    refine ⟨⟨[("count", _), ("rows", _)], rfl, List.pairwise_pair.2 (by decide)⟩, ?_⟩
    simp only [throughout_list, List.forall_mem_cons]
    iterate 5 rw [throughout_leaf (by rfl)]
    simp [Tidy]

end Stencil
