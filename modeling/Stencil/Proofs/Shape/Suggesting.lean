import Stencil.Proofs.Path.Joining
import Stencil.Proofs.Shape.Guarding
import Stencil.Proofs.Table.Keys
import Stencil.Proofs.Text.Edits

/-!
# Suggested fields

The words of a path lead along fields as far as there are such fields. If all but the last word do,
then the fields of the type reached that start like the last word or are two edits or less away from
it are suggested, and each of them makes a path that is known. Else the fields that start like the
first word without a field are suggested.
-/

namespace Stencil

/-! ## Words and fields -/

namespace Shape

variable {s : Shape} {name : String}

theorem isSome_field?_iff : (s.field? name).isSome = true ↔ name ∈ s.names := Table.mem_keys_iff.symm

theorem field?_eq_none_iff : s.field? name = none ↔ name ∉ s.names := by
  rw [← isSome_field?_iff, Bool.not_eq_true, Option.isSome_eq_false_iff, Option.isNone_iff_eq_none]

theorem pairwise_names (s : Shape) : s.names.Pairwise (· < ·) := s.fields.pairwise_keys

end Shape

namespace Catalog

theorem startsWith_iff {start name : String} :
    startsWith start name = true ↔ start.toList <+: name.toList :=
  List.isPrefixOf_iff_prefix

theorem mem_closeFields_iff {s : Shape} {word f : String} :
    f ∈ closeFields s word ↔
      f ∈ s.names ∧ (word.toList <+: f.toList ∨ Text.Edits 2 f.toList word.toList) := by
  rw [closeFields, List.mem_filter, Bool.or_eq_true, startsWith_iff, decide_eq_true_iff,
    Text.distance_le_iff, fieldSuggestionDistance]

end Catalog

namespace Graph

variable {g : Graph} {t u : Descriptor} {word : String}

/-- The names of all fields are segments. -/
def HasPlainFields (g : Graph) : Prop := ∀ t, ∀ f ∈ (g.shape t).names, IsSegment f

/-! ## Walks -/

theorem follow?_append (g : Graph) (t : Descriptor) (front rest : List String) :
    g.follow? t (front ++ rest) = (g.follow? t front).bind (g.follow? · rest) := by
  induction front generalizing t with
  | nil => rfl
  | cons word front ih =>
    rw [List.cons_append, follow?, follow?, Option.bind_assoc]
    exact Option.bind_congr fun u _ => ih u

theorem isSome_follow?_singleton : (g.follow? t [word]).isSome = true ↔ word ∈ (g.shape t).names := by
  rw [← Shape.isSome_field?_iff, follow?, Option.isSome_bind]
  simp [follow?]

/-- A path is known if a walk along all but its last word reaches a type with a field of that name. -/
theorem leads_concat_iff {front : List String} (h : ∀ w ∈ front ++ [word], IsSegment w) :
    g.leads t (Path.mk (front ++ [word])).dotted = true ↔
      ∃ u, g.follow? t front = some u ∧ word ∈ (g.shape u).names := by
  rw [leads, Path.ofText_dotted h, List.isEmpty_eq_false_iff.2 (List.concat_ne_nil word front),
    Bool.not_false, Bool.true_and, follow?_append]
  cases hu : g.follow? t front with
  | none => simp
  | some u => rw [Option.bind_some, isSome_follow?_singleton]; simp

/-- A walk that ends early ends at the first word without a field. -/
theorem exists_missing {words : List String} (h : g.follow? t words = none) :
    ∃ before word after u, words = before ++ word :: after ∧ g.follow? t before = some u ∧
      word ∉ (g.shape u).names := by
  induction words generalizing t with
  | nil => cases h
  | cons word rest ih =>
    rw [follow?] at h
    cases hf : (g.shape t).field? word with
    | none => exact ⟨[], word, rest, t, rfl, rfl, Shape.field?_eq_none_iff.1 hf⟩
    | some u =>
      rw [hf, Option.bind_some] at h
      obtain ⟨before, missing, after, v, rfl, hv, hm⟩ := ih h
      refine ⟨word :: before, missing, after, v, rfl, ?_, hm⟩
      rw [follow?, hf, Option.bind_some, hv]

/-! ## Suggestions after a walk -/

theorem closeFrom_cons (g : Graph) (t : Descriptor) (word : String) {rest : List String}
    (hne : rest ≠ []) : g.closeFrom t (word :: rest) =
      (((g.shape t).field? word).map (g.closeFrom · rest)).getD
        ((g.shape t).names.filter (Catalog.startsWith word)) := by
  cases rest with
  | nil => exact absurd rfl hne
  | cons next rest =>
    rw [closeFrom.eq_3 g t word (next :: rest) (by simp)]
    cases (g.shape t).field? word <;> rfl

theorem closeFrom_append {front : List String} (h : g.follow? t front = some u) {rest : List String}
    (hne : rest ≠ []) : g.closeFrom t (front ++ rest) = g.closeFrom u rest := by
  induction front generalizing t with
  | nil => rw [List.nil_append, Option.some.inj h]
  | cons word front ih =>
    rw [follow?, Option.bind_eq_some_iff] at h
    obtain ⟨v, hv, h⟩ := h
    rw [List.cons_append, closeFrom_cons g t word (List.append_ne_nil_of_right_ne_nil front hne), hv]
    exact ih h

variable {f : String}

theorem mem_closeFrom_last {front : List String} (hu : g.follow? t front = some u)
    (h : IsSegment word) : f ∈ g.closeFrom t (front ++ [word]) ↔
      f ∈ (g.shape u).names ∧ (word.toList <+: f.toList ∨ Text.Edits 2 f.toList word.toList) := by
  rw [closeFrom_append hu (List.cons_ne_nil word []), closeFrom,
    if_neg fun e => h.1 (String.isEmpty_iff.1 e), Catalog.mem_closeFields_iff]

theorem mem_closeFrom_missing {before rest : List String} (hu : g.follow? t before = some u)
    (hm : word ∉ (g.shape u).names) (hne : rest ≠ []) :
    f ∈ g.closeFrom t (before ++ word :: rest) ↔
      f ∈ (g.shape u).names ∧ word.toList <+: f.toList := by
  rw [closeFrom_append hu (List.cons_ne_nil word rest), closeFrom_cons g u word hne,
    Shape.field?_eq_none_iff.2 hm, Option.map_none, Option.getD_none, List.mem_filter,
    Catalog.startsWith_iff]

theorem pairwise_closeFrom (g : Graph) (t : Descriptor) (words : List String) :
    (g.closeFrom t words).Pairwise (· < ·) := by
  fun_induction closeFrom g t words with
  | case1 => exact .nil
  | case2 => exact .nil
  | case3 t word _ => exact (Shape.pairwise_names _).filter _
  | case4 _ _ _ _ _ _ ih => exact ih
  | case5 t word _ _ _ => exact (Shape.pairwise_names _).filter _

end Graph

/-! ## Requests by name -/

namespace Catalog

variable {g : Graph} {c : Catalog}

/-- What is suggested for a path is what the words say, and a catalog that is asked for suggestions
knows the same paths before and after. -/
theorem Reachable.suggestions_dotted (hc : c.Reachable g) {name : String} {t : Descriptor}
    (hn : (c.resolve g name).1.map (·.type) = some t) {words : List String} (hne : words ≠ [])
    (hw : ∀ w ∈ words, IsSegment w) :
    (c.suggestions g name (Path.mk words).dotted).1 = g.closeFrom t words ∧
      ∀ path, (c.knowsField g name path).1 = g.leads t path ∧
        ((c.suggestions g name (Path.mk words).dotted).2.knowsField g name path).1 = g.leads t path := by
  have hs := Settled.steady hc.settled.names
  have hb : Bears g c.store.aliases c := ⟨hc.settled, rfl⟩
  have ht : c.store.aliases.get? name = some t := (alias?_eq_type_of_resolve c name).symm.trans hn
  have hk : ∀ {c' : Catalog} path, Bears g c.store.aliases c' →
      (c'.knowsField g name path).1 = g.leads t path := fun path hb' => by
    rw [(hs.knowsField hb' name path).1, ht, Option.any_some]
  obtain ⟨he, hl⟩ := hs.suggestions hb name (Path.mk words).dotted
  refine ⟨?_, fun path => ⟨hk path hb, hk path hl⟩⟩
  rw [he, ht, Path.splitOn_dotted hne hw]
  rfl

/-- The suggestions for a path from a type that a name stands for. -/
theorem suggestions_exact {g : Graph} (hg : g.HasPlainFields) {c : Catalog} (hc : c.Reachable g)
    {name : String} {t : Descriptor} (hn : (c.resolve g name).1.map (·.type) = some t)
    {front : List String} {last : String} (hw : ∀ w ∈ front ++ [last], IsSegment w) :
    let path := (Path.mk (front ++ [last])).dotted
    let found := (c.suggestions g name path).1
    let later := (c.suggestions g name path).2
    found.Pairwise (· < ·) ∧
    (∀ u, g.follow? t front = some u →
      (∀ f, f ∈ found ↔ f ∈ (g.shape u).names ∧
        (last.toList <+: f.toList ∨ Text.Edits 2 f.toList last.toList)) ∧
      ∀ f ∈ found, let known := (Path.mk (front ++ [f])).dotted
        (c.knowsField g name known).1 = true ∧ (later.knowsField g name known).1 = true) ∧
    (g.follow? t front = none → ∃ before word after u, front = before ++ word :: after ∧
      g.follow? t before = some u ∧ word ∉ (g.shape u).names ∧
      ∀ f, f ∈ found ↔ f ∈ (g.shape u).names ∧ word.toList <+: f.toList) ∧
    ((c.knowsField g name path).1 = true → last ∈ found) := by
  intro path found later
  obtain ⟨hfound, hknows⟩ := hc.suggestions_dotted hn (List.concat_ne_nil last front) hw
  replace hfound : found = g.closeFrom t (front ++ [last]) := hfound
  have hlast : IsSegment last := hw last (List.mem_append_right _ List.mem_cons_self)
  refine ⟨?sorted, fun u hu => ⟨fun f => ?close, fun f hf => ?known⟩, fun h => ?missing, fun h => ?own⟩
  case sorted => exact hfound ▸ Graph.pairwise_closeFrom g t _
  case close => rw [hfound, Graph.mem_closeFrom_last hu hlast]
  case known =>
    rw [hfound, Graph.mem_closeFrom_last hu hlast] at hf
    have hp : ∀ w ∈ front ++ [f], IsSegment w := by
      intro w hmem
      rcases List.mem_append.1 hmem with hmem | hmem
      · exact hw w (List.mem_append_left _ hmem)
      · exact List.mem_singleton.1 hmem ▸ hg u f hf.1
    have hl := (Graph.leads_concat_iff hp).2 ⟨u, hu, hf.1⟩
    exact ⟨(hknows _).1.trans hl, (hknows _).2.trans hl⟩
  case missing =>
    obtain ⟨before, word, after, u, rfl, hu, hm⟩ := Graph.exists_missing h
    refine ⟨before, word, after, u, rfl, hu, hm, fun f => ?_⟩
    rw [hfound, List.append_assoc, List.cons_append,
      Graph.mem_closeFrom_missing hu hm (List.concat_ne_nil last after)]
  case own =>
    rw [(hknows path).1] at h
    obtain ⟨u, hu, hm⟩ := (Graph.leads_concat_iff hw).1 h
    rw [hfound, Graph.mem_closeFrom_last hu hlast]
    exact ⟨hm, .inl List.prefix_rfl⟩

/-- Behind two steps of a record to itself, one field is close to a word with two letters swapped. -/
theorem suggestions_exact_node :
    let node := Descriptor.record "Node" 0
    let g : Graph := ⟨[[⟨"next", false, node⟩, ⟨"value", false, .bool⟩]]⟩
    let c := ((build .standard 0).serve g (.register "Entry" node)).2
    g.HasPlainFields ∧ c.Reachable g ∧ (c.resolve g "Entry").1.map (·.type) = some node ∧
      (∀ f, f ∈ (c.suggestions g "Entry" "next.next.vaule").1 ↔ f = "value") ∧
      (c.knowsField g "Entry" "next.next.value").1 = true := by
  intro node g c
  have hnode : ∀ name, (g.shape (.record name 0)).names = ["next", "value"] := by
    intro name
    show (Discovery.declared (g.members node)).keys = _
    decide
  have hg : g.HasPlainFields := by
    rintro (_ | ⟨name, _ | n⟩) f hf
    · cases hf
    · rw [hnode] at hf
      revert f
      decide
    · cases hf
  have hc : c.Reachable g := (Reachable.build .standard 0).serve _
  have hn : (c.resolve g "Entry").1.map (·.type) = some node := by
    rw [alias?_eq_type_of_resolve]
    exact grows_shapeOf (g := g) ⟨⟨.kept, [], Table.empty.set "Entry" node⟩, 0, false⟩ node
      "Entry" node (by decide)
  have hu : g.follow? node ["next", "next"] = some node := by decide
  have hw : ∀ w ∈ ["next", "next"] ++ ["vaule"], IsSegment w := by decide
  obtain ⟨-, hfound, -⟩ := suggestions_exact hg hc hn hw
  obtain ⟨hclose, hknown⟩ := hfound node hu
  have hmem : ∀ f, f ∈ (c.suggestions g "Entry" "next.next.vaule").1 ↔ f = "value" := by
    refine fun f => (hclose f).trans ?_
    rw [hnode "Node", ← Text.distance_le_iff]
    constructor
    · rintro ⟨hf, hd⟩
      revert f
      decide
    · rintro rfl
      decide
  exact ⟨hg, hc, hn, hmem, (hknown "value" ((hmem "value").2 rfl)).1⟩

end Catalog

end Stencil
