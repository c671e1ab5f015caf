import Stencil.Expr.Interchange
import Stencil.Proofs.Document.Parts

/-!
# Expressions told back by their documents

The document of an expression is read back as that expression, in whatever order its fields come, so
no two expressions have the same document.
-/

namespace Stencil

/-! ## The order of fields -/

namespace Document

variable {d : Document}

@[simp] theorem str?_ordered : d.ordered.str? = d.str? := by cases d <;> rfl

@[simp] theorem bool?_ordered : d.ordered.bool? = d.bool? := by cases d <;> rfl

@[simp] theorem int?_ordered : d.ordered.int? = d.int? := by cases d <;> rfl

@[simp] theorem double?_ordered : d.ordered.double? = d.double? := by cases d <;> rfl

@[simp] theorem nameAmong?_ordered (names : List String) : d.ordered.nameAmong? names = d.nameAmong? names := by
  cases d <;> rfl

@[simp] theorem isJson_str (s : String) : (str s).Throughout IsJson := (throughout_leaf rfl).2 trivial

end Document

open Document (ordered IsJson)

theorem bareChoice?_ordered {d : Document} (h : d.Throughout IsJson) :
    bareChoice? d.ordered = bareChoice? d := by
  cases d with
  | object fields =>
    obtain ⟨hnames, hfields⟩ := Document.throughout_object.1 h
    obtain ⟨fs, hd, hlength, -⟩ := Document.ordered_object_of_nodup hnames
    match fields, fs with
    | [], [] => rw [hd]
    | [(n, x)], _ =>
      have hx : x.Throughout IsJson := hfields _ List.mem_cons_self
      show bareChoice? (.object [(n, x.ordered)]) = _
      cases x with
      | object inner =>
        obtain ⟨is, hi, hlength, -⟩ := Document.ordered_object_of_nodup (Document.throughout_object.1 hx).1
        rw [hi]
        match inner, is with
        | [], [] => rfl
        | _ :: _, _ :: _ => rfl
      | _ => rfl
    | _ :: _ :: _, _ :: _ :: _ =>
      simp [hd, bareChoice?]
  | _ => rfl

theorem Operator.ofDocument?_ordered {d : Document} (h : d.Throughout IsJson) :
    Operator.ofDocument? d.ordered = Operator.ofDocument? d := by
  rw [Operator.ofDocument?, bareChoice?_ordered h, Operator.ofDocument?]

namespace Literal

theorem ofContent?_ordered (kind : String) (content : Option Document) :
    ofContent? kind (content.map ordered) = ofContent? kind content := by
  cases content with
  | none => rfl
  | some c =>
    have hvoid : Document.isVoid (some c.ordered) = Document.isVoid (some c) := by cases c <;> rfl
    simp [ofContent?, hvoid]

theorem ofDocument?_ordered {d : Document} (h : d.Throughout IsJson) : ofDocument? d.ordered = ofDocument? d := by
  cases d with
  | list items =>
    rw [Document.ordered_list]
    match items with
    | [kind, content] => simp [ofDocument?, ← ofContent?_ordered _ (some content)]
    | [] | [_] | _ :: _ :: _ :: _ => rfl
  | object fields =>
    obtain ⟨fs, hd, -, hlookup⟩ := Document.ordered_object_of_nodup (Document.throughout_object.1 h).1
    have hkind : (fs.lookup "kind").bind bareChoice? = (fields.lookup "kind").bind bareChoice? := by
      rw [hlookup]
      cases hk : fields.lookup "kind" with
      | none => rfl
      | some k => exact bareChoice?_ordered (Document.throughout_of_lookup h hk)
    simp only [hd, ofDocument?, hkind, hlookup "value", ofContent?_ordered]
  | _ => rfl

end Literal

namespace Expr

/-- A node is read from fields in order as from the fields themselves. -/
theorem ofFields?_ordered {kind : String} {field field' : String → Option Field}
    (hfield : ∀ n, field' n = (field n).map fun f => (f.1.ordered, f.2))
    (hj : ∀ n f, field n = some f → f.1.Throughout IsJson) : ofFields? kind field' = ofFields? kind field := by
  have hread : ∀ {α : Type} (n : String) {g g' : Field → Option α},
      (∀ f, f.1.Throughout IsJson → g' (f.1.ordered, f.2) = g f) → (field' n).bind g' = (field n).bind g := by
    intro α n g g' hg
    rw [hfield]
    cases hf : field n with
    | none => rfl
    | some f => exact hg f (hj n f hf)
  unfold ofFields?
  split_ifs
  · exact hread "value" fun f hf => congrArg (Option.map literal) (Literal.ofDocument?_ordered hf)
  · exact hread "name" fun f _ => congrArg (Option.map identifier) Document.str?_ordered
  · refine hread "left" fun l _ => congrArg l.2.bind (funext fun left => ?_)
    refine hread "op" fun o ho => ?_
    refine congrArg₂ Option.bind (Operator.ofDocument?_ordered ho) (funext fun op => ?_)
    exact hread "right" fun r _ => rfl
  · exact hread "code" fun f _ => congrArg (Option.map raw) Document.str?_ordered
  · rfl

theorem fieldsOf_eq (fields : List (String × Document)) :
    fieldsOf fields = fields.map fun f => (f.1, f.2, ofInner? f.2) := by
  induction fields with
  | nil => rfl
  | cons f r ih => rw [fieldsOf, ih, List.map_cons]

theorem lookup_fieldsOf (fields : List (String × Document)) (n : String) :
    (fieldsOf fields).lookup n = (fields.lookup n).map fun d => (d, ofInner? d) := by
  rw [fieldsOf_eq]
  exact Table.lookup_map (fun d => (d, ofInner? d)) n fields

theorem itemsOf_eq (items : List Document) : itemsOf items = items.map fun d => (d, ofInner? d) := by
  induction items with
  | nil => rfl
  | cons d r ih => rw [itemsOf, ih, List.map_cons]

theorem ofInner?_ordered {d : Document} (h : d.Throughout IsJson) : ofInner? d.ordered = ofInner? d := by
  induction d using Document.ind with
  | list items ih =>
    rw [Document.ordered_list]
    match items with
    | [] => rfl
    | kind :: r =>
      have hj : ∀ d ∈ r, d.Throughout IsJson := fun d hd =>
        (Document.throughout_list.1 h).2 d (List.mem_cons_of_mem _ hd)
      have hr : itemsOf (r.map ordered) = (itemsOf r).map fun f => (f.1.ordered, f.2) := by
        rw [itemsOf_eq, itemsOf_eq, List.map_map, List.map_map]
        refine List.map_congr_left fun d hd => congrArg (Prod.mk d.ordered) ?_
        exact ih d (List.mem_cons_of_mem _ hd) (hj d hd)
      rw [List.map_cons, ofInner?, ofInner?, Document.nameAmong?_ordered, List.length_map, hr]
      refine congrArg _ (funext fun kind => ?_)
      refine ite_congr rfl (fun _ => ofFields?_ordered (fun n => ?_) fun n f hf => ?_) fun _ => rfl
      · rw [List.zip_map_right]
        exact Table.lookup_map (fun f : Field => (f.1.ordered, f.2)) n _
      · rw [itemsOf_eq] at hf
        obtain ⟨d, hd, rfl⟩ := List.mem_map.1 (List.of_mem_zip (Table.mem_of_lookup hf)).2
        exact hj d hd
  | object fields ih =>
    obtain ⟨fs, hd, -, hlookup⟩ := Document.ordered_object_of_nodup (Document.throughout_object.1 h).1
    have htype : (fs.lookup "type").bind (·.nameAmong? kinds) = (fields.lookup "type").bind (·.nameAmong? kinds) := by
      rw [hlookup]
      cases fields.lookup "type" <;> simp
    rw [hd, ofInner?, ofInner?, htype]
    refine congrArg _ (funext fun kind => ofFields?_ordered (fun n => ?_) fun n f hf => ?_)
    · rw [lookup_fieldsOf, lookup_fieldsOf, hlookup]
      cases hn : fields.lookup n with
      | none => rfl
      | some d =>
        have hd := ih _ (Table.mem_of_lookup hn) (Document.throughout_of_lookup h hn)
        exact congrArg (fun e => some (d.ordered, e)) hd
    · rw [lookup_fieldsOf] at hf
      obtain ⟨d, hd, rfl⟩ := Option.map_eq_some_iff.1 hf
      exact Document.throughout_of_lookup h hd
  | _ => rfl

/-- The order of the fields of a document counts for nothing. -/
theorem ofDocument?_ordered {d : Document} (h : d.Throughout IsJson) : ofDocument? d.ordered = ofDocument? d := by
  have htag : (tag? d.ordered).bind Document.str? = (tag? d).bind Document.str? := by
    cases d with
    | list items =>
      rw [Document.ordered_list]
      cases items with
      | nil => rfl
      | cons kind r => exact Document.str?_ordered
    | object fields =>
      obtain ⟨fs, hd, -, hlookup⟩ := Document.ordered_object_of_nodup (Document.throughout_object.1 h).1
      rw [hd, tag?, tag?, hlookup]
      cases fields.lookup "type" <;> simp
    | _ => rfl
  rw [ofDocument?, htag, ofInner?_ordered h, ofDocument?]

end Expr

/-! ## Documents of expressions -/

namespace Literal

theorem ofDocument?_toDocument (l : Literal) : ofDocument? l.toDocument = some l := by
  cases l with
  | int v => exact congrArg (Option.map int) (int32?_toInt v)
  | long v => exact congrArg (Option.map long) (int64?_toInt v)
  | _ => rfl

def finite : Literal → Bool
  | float x => x.isFinite
  | _ => true

theorem isJson_toDocument {l : Literal} (h : l.finite = true) : l.toDocument.Throughout IsJson := by
  have hcontent : ∀ c, l.content? = some c → c.Throughout IsJson := by
    intro c hc
    cases l with
    | null => cases hc
    | float x =>
      cases hc
      exact (Document.throughout_leaf rfl).2 h
    | _ =>
      cases hc
      exact (Document.throughout_leaf rfl).2 trivial
  rw [toDocument, Document.throughout_object]
  cases hc : l.content? with
  | none => simp [IsJson]
  | some c => simp [IsJson, hcontent c hc]

end Literal

namespace Expr

/-- All floats of the tree are finite. -/
def finite : Expr → Bool
  | literal v => v.finite
  | binary l _ r => l.finite && r.finite
  | identifier _ | raw _ => true

theorem isJson_toDocument {e : Expr} (h : e.finite = true) : e.toDocument.Throughout IsJson := by
  induction e with
  | literal v =>
    have hv : v.toDocument.Throughout IsJson := Literal.isJson_toDocument h
    simp [toDocument, Document.throughout_object, IsJson, hv]
  | binary l op r ihl ihr =>
    obtain ⟨hl, hr⟩ := Bool.and_eq_true_iff.1 h
    simp [toDocument, Document.throughout_object, IsJson, ihl hl, ihr hr]
  | identifier n => simp [toDocument, Document.throughout_object, IsJson]
  | raw c => simp [toDocument, Document.throughout_object, IsJson]

theorem ofInner?_toDocument (e : Expr) : ofInner? e.toDocument = some e := by
  induction e with
  | literal v => exact congrArg (Option.map literal) (Literal.ofDocument?_toDocument v)
  | binary l op r ihl ihr =>
    show ((ofInner? l.toDocument).bind fun left => (Operator.ofSymbol? op.symbol).bind fun op =>
      (ofInner? r.toDocument).bind fun right => some (binary left op right)) = some (binary l op r)
    rw [ihl, ihr, Operator.ofSymbol?_symbol]
    rfl
  | _ => rfl

theorem ofDocument?_toDocument (e : Expr) : ofDocument? e.toDocument = some e := by
  have htag : ((tag? e.toDocument).bind Document.str?).isSome = true := by cases e <;> rfl
  rw [ofDocument?, if_pos htag, ofInner?_toDocument]

/-- A tree whose floats are finite is told in JSON and read back from there, whatever the order of
fields, and no other tree is told so. -/
theorem interchange_kept {e : Expr} (h : e.finite = true) :
    e.toDocument.Throughout IsJson ∧
    (∀ d : Document, d.Throughout IsJson → d.ordered = e.toDocument.ordered →
      ofDocument? d = some e ∧ (ofDocument? d).map identifiers = some e.identifiers) ∧
    ∀ e' : Expr, e'.finite = true → e'.toDocument.ordered = e.toDocument.ordered → e' = e := by
  have hj := isJson_toDocument h
  have hread : ∀ d : Document, d.Throughout IsJson → d.ordered = e.toDocument.ordered → ofDocument? d = some e := by
    intro d hd hde
    rw [← ofDocument?_ordered hd, hde, ofDocument?_ordered hj, ofDocument?_toDocument]
  refine ⟨hj, fun d hd hde => ⟨hread d hd hde, ?_⟩, fun e' h' he => ?_⟩
  · rw [hread d hd hde]
    rfl
  · have he' := hread e'.toDocument (isJson_toDocument h') he
    rw [ofDocument?_toDocument] at he'
    exact Option.some.inj he'

/-- Fields in another order at every depth, and a tree that differs in the width of an integer only. -/
theorem interchange_kept_shuffled :
    let one : Double := ⟨0x3FF0000000000000⟩
    let tree (l : Literal) : Expr := binary (literal l) .le (literal (.float one))
    let d : Document := .object [
      ("left", .object [("value", .object [("value", .int 1), ("kind", .str "long")]), ("type", .str "literal")]),
      ("right", .object [("value", .object [("value", .float one), ("kind", .str "float")]),
        ("type", .str "literal")]),
      ("type", .str "binary"), ("op", .str "<=")]
    (ofDocument? d = some (tree (.long 1)) ∧ (ofDocument? d).map identifiers = some []) ∧
    (tree (.int 1)).toDocument.ordered ≠ (tree (.long 1)).toDocument.ordered := by
  intro one tree d
  have hone : one.isFinite = true := by decide
  have hint : (Document.int 1).Throughout IsJson := (Document.throughout_leaf rfl).2 trivial
  have hfloat : (Document.float one).Throughout IsJson := (Document.throughout_leaf rfl).2 hone
  obtain ⟨-, hread, hunique⟩ := interchange_kept (e := tree (.long 1)) (by decide)
  refine ⟨hread d ?_ ?_, fun he => ?_⟩
  · simp [d, Document.throughout_object, IsJson, hint, hfloat]
  · have hop : Operator.le.symbol = "<=" := rfl
    have hlong : Int64.toInt 1 = 1 := by decide
    simp only [d, tree, toDocument, Literal.toDocument, Literal.kind, Literal.content?, Option.map, Option.toList, hop,
      hlong, ordered, Document.orderedFields, Table.ofList, Table.setAll, List.foldl, Table.set, Table.empty, Table.put,
      String.reduceLT, String.reduceEq, if_true, if_false]
  · exact absurd (hunique (tree (.int 1)) (by decide) he) (by decide)

end Expr

end Stencil
