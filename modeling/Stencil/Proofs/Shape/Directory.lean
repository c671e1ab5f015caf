import Stencil.Proofs.Shape.Visit

/-!
# Directories

A directory knows for each name the type that it stands for, and nothing else. It answers the same
requests as a catalog by walking through the discovered fields of the types. It is what a catalog
is without the shapes that it keeps.
-/

namespace Stencil

inductive Request
  | shapeOf (t : Descriptor)
  | register (name : String) (t : Descriptor)
  | resolve (name : String)
  | contains (name : String)
  | knowsField (name path : String)
  | suggestions (name path : String)
  | clear

inductive Reply
  | shape (s : Shape)
  | refused (fault : CatalogFault)
  | resolved (s : Option Shape)
  | truth (b : Bool)
  | fields (names : List String)
  | cleared
deriving DecidableEq

namespace Catalog

/-- The reply to a request, and the catalog after it. -/
def serve (g : Graph) (c : Catalog) : Request → Reply × Catalog
  | .shapeOf t => (.shape (c.shapeOf g t).1, (c.shapeOf g t).2)
  | .register name t =>
    match c.register g name t with
    | .ok (s, c) => (.shape s, c)
    | .error fault => (.refused fault, c)
  | .resolve name => (.resolved (c.resolve g name).1, (c.resolve g name).2)
  | .contains name => (.truth (c.contains name), c)
  | .knowsField name path => (.truth (c.knowsField g name path).1, (c.knowsField g name path).2)
  | .suggestions name path => (.fields (c.suggestions g name path).1, (c.suggestions g name path).2)
  | .clear =>
    match c.clear with
    | .ok c => (.cleared, c)
    | .error fault => (.refused fault, c)

def replies (g : Graph) : Catalog → List Request → List Reply
  | _, [] => []
  | c, r :: rs => (c.serve g r).1 :: replies g (c.serve g r).2 rs

/-! ## Requests that may be refused -/

theorem serve_register_snd (g : Graph) (c : Catalog) (name : String) (t : Descriptor) :
    (c.serve g (.register name t)).2 = c ∨ (c.serve g (.register name t)).2 =
      ({ c with store := c.store.setAlias name t true }.shapeOf g t).2 := by
  simp only [serve, register]
  cases c.readOnly with
  | true => exact .inl rfl
  | false =>
    cases name.isEmpty with
    | true => exact .inl rfl
    | false => exact .inr rfl

theorem serve_clear_snd (g : Graph) (c : Catalog) :
    (c.serve g .clear).2 = c ∨ (c.serve g .clear).2 = { c with store := c.store.clear } := by
  simp only [serve, clear]
  cases c.readOnly with
  | true => exact .inl rfl
  | false => exact .inr rfl

section
variable {c : Catalog} (hw : c.readOnly = false)
include hw

theorem serve_register_of_writable (g : Graph) (name : String) (t : Descriptor) :
    c.serve g (.register name t) =
      if name.isEmpty then (.refused .emptyAlias, c)
      else (.shape ({ c with store := c.store.setAlias name t true }.shapeOf g t).1,
        ({ c with store := c.store.setAlias name t true }.shapeOf g t).2) := by
  simp only [serve, register, hw, Bool.false_eq_true, if_false]
  cases name.isEmpty <;> rfl

theorem serve_clear_of_writable (g : Graph) :
    c.serve g .clear = (.cleared, { c with store := c.store.clear }) := by
  simp only [serve, clear, hw, Bool.false_eq_true, if_false]

end

end Catalog

/-! ## Fields without a catalog -/

namespace Graph

/-- The type at the end of the fields with these names. -/
def follow? (g : Graph) : Descriptor → List String → Option Descriptor
  | t, [] => some t
  | t, name :: rest => ((g.shape t).field? name).bind (g.follow? · rest)

/-- The path has a segment, and its segments lead along fields from the type. -/
def leads (g : Graph) (t : Descriptor) (path : String) : Bool :=
  !(Path.ofText path).segments.isEmpty && (g.follow? t (Path.ofText path).segments).isSome

/-- The fields suggested for the last of the words, after a walk along the others. -/
def closeFrom (g : Graph) : Descriptor → List String → List String
  | _, [] => []
  | t, [word] => if word.isEmpty then [] else Catalog.closeFields (g.shape t) word
  | t, word :: rest =>
    match (g.shape t).field? word with
    | some u => g.closeFrom u rest
    | none => (g.shape t).names.filter (Catalog.startsWith word)

end Graph

/-- The types that names stand for. -/
abbrev Directory := Table Descriptor

namespace Directory

/-- A record gives its name to its type unless the name is taken. -/
def bind (d : Directory) (t : Descriptor) : Directory := if t.isLeaf then d else d.setNew t.name t

def bindAll (d : Directory) (ts : List Descriptor) : Directory := ts.foldl bind d

/-- The reply to a request, and the directory after it. Only requests for types change it. -/
def serve (g : Graph) (d : Directory) : Request → Reply × Directory
  | .shapeOf t => (.shape (g.shape t), d.bindAll (g.preorder t))
  | .register name t =>
    if name.isEmpty then (.refused .emptyAlias, d)
    else (.shape (g.shape t), Directory.bindAll (d.set name t) (g.preorder t))
  | .resolve name => (.resolved ((d.get? name).map g.shape), d)
  | .contains name => (.truth (d.get? name).isSome, d)
  | .knowsField name path => (.truth ((d.get? name).any (g.leads · path)), d)
  | .suggestions name path =>
    (.fields (((d.get? name).map
      (g.closeFrom · ((path.toList.splitOnP (· == '.')).map String.ofList))).getD []), d)
  | .clear => (.cleared, .empty)

def replies (g : Graph) : Directory → List Request → List Reply
  | _, [] => []
  | d, r :: rs => (serve g d r).1 :: replies g (serve g d r).2 rs

/-! ## Names stay -/

/-- The name of a record stands for something. -/
def Named (d : Directory) (t : Descriptor) : Prop := t.isLeaf = true ∨ d.contains t.name = true

def Grows (d d' : Directory) : Prop := ∀ n t, d.get? n = some t → d'.get? n = some t

variable {d : Directory}

theorem Grows.refl (d : Directory) : Grows d d := fun _ _ h => h

theorem Grows.trans {d' d'' : Directory} (h : Grows d d') (h' : Grows d' d'') : Grows d d'' :=
  fun n t e => h' n t (h n t e)

theorem Grows.contains {d' : Directory} (h : Grows d d') {n : String} (hn : d.contains n = true) :
    d'.contains n = true := by
  obtain ⟨t, ht⟩ := Option.isSome_iff_exists.1 hn
  rw [Table.contains, h n t ht]; rfl

theorem Grows.named {d' : Directory} (h : Grows d d') {t : Descriptor} (ht : Named d t) : Named d' t :=
  ht.imp_right h.contains

theorem Named.set {t : Descriptor} (h : Named d t) (name : String) (u : Descriptor) :
    Named (d.set name u) t :=
  h.imp_right fun hc => by rw [Table.contains_set, hc, Bool.or_true]

theorem grows_bind (d : Directory) (t : Descriptor) : Grows d (d.bind t) := by
  intro n u h
  unfold bind
  split
  · exact h
  · rw [Table.get?_setNew, if_neg]
    · exact h
    · rintro ⟨rfl, hn⟩
      rw [hn] at h; cases h

theorem grows_bindAll (ts : List Descriptor) (d : Directory) : Grows d (d.bindAll ts) := by
  induction ts generalizing d with
  | nil => exact .refl d
  | cons t ts ih => exact (grows_bind d t).trans (ih _)

theorem named_bind (d : Directory) (t : Descriptor) : Named (d.bind t) t := by
  unfold Named bind
  cases ht : t.isLeaf with
  | true => exact .inl rfl
  | false =>
    right
    rw [if_neg Bool.false_ne_true, Table.contains, Table.get?_setNew]
    split
    · rfl
    · rename_i h
      cases hn : Table.get? d t.name with
      | none => exact absurd ⟨rfl, hn⟩ h
      | some u => rfl

theorem named_bindAll {ts : List Descriptor} {t : Descriptor} (h : t ∈ ts) (d : Directory) :
    Named (d.bindAll ts) t := by
  induction ts generalizing d with
  | nil => cases h
  | cons u ts ih =>
    rcases List.mem_cons.1 h with rfl | h
    · exact (grows_bindAll ts _).named (named_bind d t)
    · exact ih h _

theorem bind_of_named {t : Descriptor} (h : Named d t) : d.bind t = d := by
  unfold bind
  rcases h with h | h
  · rw [if_pos h]
  · split
    · rfl
    · rw [Table.setNew, if_pos h]

theorem bindAll_of_named {ts : List Descriptor} (h : ∀ t ∈ ts, Named d t) : d.bindAll ts = d := by
  induction ts with
  | nil => rfl
  | cons t ts ih =>
    rw [bindAll, List.foldl_cons, bind_of_named (h t List.mem_cons_self)]
    exact ih fun u hu => h u (List.mem_cons_of_mem _ hu)

theorem bindAll_append (ts us : List Descriptor) (d : Directory) :
    d.bindAll (ts ++ us) = Directory.bindAll (d.bindAll ts) us := List.foldl_append

theorem get?_bindAll {ts : List Descriptor} {n : String} {t : Descriptor}
    (h : (d.bindAll ts).get? n = some t) :
    d.get? n = some t ∨ (t ∈ ts ∧ t.isLeaf = false ∧ t.name = n) := by
  induction ts generalizing d with
  | nil => exact .inl h
  | cons u ts ih =>
    rcases ih h with h | ⟨h, hl⟩
    · unfold bind at h
      cases hu : u.isLeaf with
      | true => rw [if_pos hu] at h; exact .inl h
      | false =>
        rw [if_neg (by rw [hu]; exact Bool.false_ne_true), Table.get?_setNew] at h
        split at h
        · rename_i hn
          cases h
          exact .inr ⟨List.mem_cons_self, hu, hn.1.symm⟩
        · exact .inl h
    · exact .inr ⟨List.mem_cons_of_mem _ h, hl⟩

/-! ## Settled directories -/

/-- Every record that is reached from a type with a name has its name bound. -/
def Settled (g : Graph) (d : Directory) : Prop :=
  ∀ n t, d.get? n = some t → ∀ u, g.Reach t u → Named d u

variable {g : Graph}

theorem settled_empty : Settled g .empty := fun _ _ h => by cases h

theorem settled_bindAll {t : Descriptor} (h : ∀ n u, d.get? n = some u → u = t ∨ ∀ v, g.Reach u v → Named d v) :
    Settled g (d.bindAll (g.preorder t)) := by
  have ht : ∀ v, g.Reach t v → Named (d.bindAll (g.preorder t)) v := fun v hv =>
    named_bindAll (Graph.mem_preorder.2 hv) d
  intro n u hu v hv
  rcases get?_bindAll hu with hu | ⟨hm, -⟩
  · rcases h n u hu with rfl | h
    · exact ht v hv
    · exact (grows_bindAll _ d).named (h v hv)
  · exact ht v ((Graph.mem_preorder.1 hm).trans hv)

theorem Settled.shapeOf (h : Settled g d) (t : Descriptor) : Settled g (d.bindAll (g.preorder t)) :=
  settled_bindAll fun n u hu => .inr (h n u hu)

theorem Settled.register (h : Settled g d) (name : String) (t : Descriptor) :
    Settled g (Directory.bindAll (d.set name t) (g.preorder t)) := by
  refine settled_bindAll fun n u hu => ?_
  rw [Table.get?_set] at hu
  split at hu
  · cases hu; exact .inl rfl
  · exact .inr fun v hv => (h n u hu v hv).set name t

theorem Settled.serve (h : Settled g d) (r : Request) : Settled g (Directory.serve g d r).2 := by
  cases r with
  | shapeOf t => exact h.shapeOf t
  | register name t =>
    simp only [Directory.serve]
    split
    · exact h
    · exact h.register name t
  | clear => exact settled_empty
  | _ => exact h

end Directory

end Stencil
