import Stencil.Proofs.Text.Dotted
import Stencil.Proofs.Naming.Element
import Stencil.Proofs.Session.Starting
import Stencil.Proofs.Session.Existence

/-!
# Checked fields

A session that registers its globals gives each of their records its name. A reference to a global
object, or to the item of a loop over global objects, is recorded with the name of its record, and
since no check changes what names stand for and no lapse of a shape does, its fields are checked on
that record whenever that happens.
-/

namespace Stencil

namespace Session

variable {g : Graph} {c : Catalog} {d : Directory} {s : Session}

/-! ## What is recorded -/

theorem nextReference_standard (h : s.classifier = .standard) {text : String}
    (ht : Text.trimmed text = text) {k : Classification}
    (hc : Classifier.standard.classify text s.scopes s.globals = k) :
    s.nextReference text =
      ⟨text, k.kind, k.typeName, s.settings.sourceLabel ++ ":ref:" ++ toString (s.counter + 1),
        k.settled⟩ := by
  rw [nextReference, ht, h, hc]
  rfl

theorem classify_global {source : GlobalSource} {scopes : Scopes} {x text : String} {v : Value}
    (hr : rootOf text = x) (hn : scopes.scopeValue? x = none) (hb : source.Binds x v) :
    Classifier.standard.classify text scopes source = ⟨.global, v.displayName, false⟩ := by
  rw [Classifier.classify_standard, hr, hn, hb.contains, hb.get?]
  rfl

theorem classify_item {source : GlobalSource} {scopes : Scopes} {x text t : String}
    (hr : rootOf text = x) (hb : scopes.scopeValue? x = some (.marker t)) :
    Classifier.standard.classify text scopes source = ⟨.scopeItem, t, true⟩ := by
  rw [Classifier.classify_standard, hr, hb]

/-! ## The item of an open loop -/

/-- So far the body of a loop left its scope open and bound the item in no scope. -/
def LoopOpen (s : Session) (item list : String) (inside : List Move) : Prop :=
  (∀ ms, ms <+: inside → s.scopes.depth < ((s.enterList item list).after ms).scopes.depth) ∧
    ∀ b, .define item b ∉ inside

theorem shows_perform {outer : Nat} {name : String} {b : Binding} (h : s.scopes.Shows outer name b)
    {m : Move} (hm : ∀ b', m ≠ .define name b') (hd : outer < (s.perform m).scopes.depth) :
    (s.perform m).scopes.Shows outer name b := by
  cases m with
  | push kind label => exact h.push kind label
  | close depth => exact h.unwindTo hd
  | define n b' => exact h.define (fun e => hm b' (e ▸ rfl)) b'
  | edit e =>
    have he : (s.perform (.edit e)).scopes = s.scopes := scopes_edit s e
    exact he ▸ h
  | reset => exact absurd hd (Nat.not_lt_zero outer)
  | _ => exact h

theorem shows_after {outer : Nat} {name : String} {b : Binding} (h : s.scopes.Shows outer name b)
    {ms : List Move} (hm : ∀ b', .define name b' ∉ ms)
    (hd : ∀ ms', ms' <+: ms → outer < (s.after ms').scopes.depth) :
    (s.after ms).scopes.Shows outer name b := by
  induction ms generalizing s with
  | nil => exact h
  | cons m ms ih =>
    have hm' : ∀ b', m ≠ .define name b' := fun b' e => hm b' (e ▸ List.mem_cons_self)
    have hd' : outer < (s.perform m).scopes.depth := hd [m] ⟨ms, rfl⟩
    refine ih (shows_perform h hm' hd') (fun b' hb => hm b' (List.mem_cons_of_mem _ hb)) ?_
    exact fun ms' hms => hd (m :: ms') (List.cons_prefix_cons.2 ⟨rfl, hms⟩)

/-- In an open loop over records the item shows the name of the record. -/
theorem LoopOpen.scopeValue? {item list n : String} {inside : List Move}
    (h : s.LoopOpen item list inside) (hn : IsTypeName n) (ho : n ≠ objectType)
    (ht : (s.nextReference list).typeName = "List<" ++ n ++ ">") :
    ((s.enterList item list).after inside).scopes.scopeValue? item = some (.marker n) := by
  refine (shows_after ?_ h.2 h.1).scopeValue?
  rw [enterList, ht, Naming.itemType_list hn ho]
  exact Scopes.shows_define s.scopes .listItem list item (.marker n)

/-! ## What is checked -/

theorem mem_codes_contributions (hk : s.chain = .standard) (hb : Catalog.Bears g d c) {r : Reference}
    {ds : List Diagnostic} (h : (r, ds) ∈ s.contributions g c) :
    r ∈ s.references ∧ ∀ code, code ∈ ds.map (·.code) ↔
      code = .unknownVariable ∧ Chain.Missing r (s.context g) ∨
      code = .unknownField ∧ ∃ path, Chain.ChecksPath r (s.context g) path ∧
        (d.get? r.typeName).any (g.leads · path) = false := by
  rw [contributions, hk] at h
  obtain ⟨hr, c', hb', rfl⟩ :=
    Chain.exists_of_mem_contributions (fun r c => Catalog.Bears.kept (s.context g) r c rfl) hb h
  have hst := Catalog.Settled.steady (hb'.2 ▸ hb'.1.names : d.Settled g)
  refine ⟨hr, fun code => ?_⟩
  rw [Chain.mem_codes_standard]
  simp only [← (hst.knowsField hb' r.typeName _).1]
  rfl

/-- Wherever a script stands that does not edit the rules, and whatever was checked or lapsed until
then, the reference is reported for its fields exactly if the path does not lead along fields from the
type, and not reported as missing. -/
def ChecksExactly (g : Graph) (s : Session) (c : Catalog) (r : Reference) (t : Descriptor)
    (path : String) : Prop :=
  ∀ script, (∀ e, .edit e ∉ s.moves script) → ∀ ms, ms <+: s.moves script →
    Catalog.Checked g c (s.catalogAfter g c ms) ∧
    ∀ c', Catalog.Checked g c c' → ∀ ds, (r, ds) ∈ (s.after ms).contributions g c' →
      (.unknownField ∈ ds.map (·.code) ↔ g.leads t path = false) ∧
        .unknownVariable ∉ ds.map (·.code)

theorem checksExactly (hf : s.Fresh) (hb : Catalog.Bears g d c)
    (hglob : s.settings.checksGlobalFields = true) {r : Reference} {t : Descriptor} {path : String}
    (hd : d.get? t.name = some t) (hc : Rule.isConcrete t.name = true)
    (hp : fieldsOf? r.expression = some path) (ht : r.typeName = t.name)
    (hk : r.kind = .global ∨ r.kind = .scopeItem) : ChecksExactly g s c r t path := by
  intro script he ms hms
  have he' : ∀ e, .edit e ∉ ms := fun e h => he e (hms.subset h)
  have ha := hf.accounts.after he'
  refine ⟨checked_catalogAfter hf.chain c he', fun c' hch ds hds => ?_⟩
  obtain ⟨hr, hcodes⟩ := mem_codes_contributions ha.chain (hb.checked hch) hds
  have hleads : (d.get? r.typeName).any (g.leads · path) = g.leads t path := by
    rw [ht, hd, Option.any_some]
  have hkind : Rule.checksKind r.kind ((s.after ms).context g) = true := by
    rcases hk with hk | hk
    · rw [hk]
      show (s.after ms).settings.checksGlobalFields = true
      rw [(after_keeps ms).1, hglob]
    · rw [hk]
      rfl
  rw [hcodes, hcodes, ha.missing_iff g hr]
  refine ⟨⟨?_, fun hl => ?_⟩, ?_⟩
  · rintro (⟨h, -⟩ | ⟨-, path', ⟨-, hp', -⟩, hf⟩)
    · cases h
    · obtain rfl : path = path' := Option.some.inj (hp.symm.trans hp')
      exact hleads ▸ hf
  · exact .inr ⟨rfl, path, ⟨hkind, hp, ht ▸ hc⟩, hleads.trans hl⟩
  · rintro (⟨-, h, -⟩ | ⟨h, -⟩)
    · rcases hk with hk | hk <;> rw [hk] at h <;> cases h
    · cases h

/-! ## Globals and items of loops over globals -/

end Session

/-- The records that the globals lead to have different names, and no name is reserved. -/
structure GlobalSource.WellNamed (g : Graph) (source : GlobalSource) : Prop where
  distinct : source.Distinct g
  isTypeName : ∀ t, source.LeadsTo g t → t.isLeaf = false → IsTypeName t.name
  notReserved : ∀ t, source.LeadsTo g t → t.isLeaf = false →
    t.name ≠ objectType ∧ t.name ≠ undefinedType ∧ t.name ≠ Rule.namespaceType

theorem isConcrete_of_isTypeName {n : String} (hn : IsTypeName n) (ho : n ≠ objectType)
    (hu : n ≠ undefinedType) (hs : n ≠ Rule.namespaceType) : Rule.isConcrete n = true := by
  have he : n.isEmpty = false := by
    rw [Bool.eq_false_iff, ne_eq, String.isEmpty_iff]
    rintro rfl
    exact hn.1 rfl
  have hm : "Map<".toList.isPrefixOf n.toList = false := by
    rw [Bool.eq_false_iff, ne_eq, List.isPrefixOf_iff_prefix]
    intro h
    exact (hn.2 '<' (h.subset (by decide))).2.1 rfl
  rw [Rule.isConcrete, he, hm, bne_iff_ne.2 ho, bne_iff_ne.2 hu, bne_iff_ne.2 hs]
  rfl

namespace Session

section

variable {g : Graph} {s : Session} {source : GlobalSource} (hn : source.WellNamed g) (settings : Settings)
  (hreg : settings.registersTypes = true) (hglob : settings.checksGlobalFields = true)
  (kind : CatalogKind) (lifetime : Nat) {t : Descriptor} (hl : t.isLeaf = false)
include hn hreg hglob hl

theorem checksExactly_start (ht : source.LeadsTo g t) {r : Reference} {path : String}
    (hp : fieldsOf? r.expression = some path) (hty : r.typeName = t.name)
    (hk : r.kind = .global ∨ r.kind = .scopeItem) :
    ChecksExactly g (start g source settings (.build kind lifetime)).1
      (start g source settings (.build kind lifetime)).2 r t path := by
  obtain ⟨ho, hu, hn'⟩ := hn.notReserved t ht hl
  have hb := bears_start_build g source settings kind lifetime
  rw [ownNames_of_registers hreg] at hb
  exact checksExactly (fresh_start ..) hb hglob (GlobalSource.get?_directory hn.distinct ht hl)
    (isConcrete_of_isTypeName (hn.isTypeName t ht hl) ho hu hn') hp hty hk

variable (hclass : s.classifier = .standard) (hglobals : s.globals = source) {x path : String}
  (hx : IsVariable x) (hp : IsTrimmedPath path) (hnone : s.scopes.scopeValue? x = none) {i : Nat}
include hclass hglobals hx hp hnone

theorem checksExactly_global (hb : source.Binds x (.object t i)) :
    ChecksExactly g (start g source settings (.build kind lifetime)).1
      (start g source settings (.build kind lifetime)).2 (s.nextReference (x ++ "." ++ path)) t path := by
  have hk : Classifier.standard.classify (x ++ "." ++ path) s.scopes s.globals =
      ⟨.global, t.name, false⟩ :=
    classify_global (hx.rootOf_dotted path) hnone (hglobals.symm ▸ hb)
  rw [nextReference_standard hclass (hx.trimmed_dotted hp) hk]
  exact checksExactly_start hn settings hreg hglob kind lifetime hl (.of_mem (hb.mem_types rfl))
    (hx.fieldsOf?_dotted path) rfl (.inl rfl)

theorem checksExactly_item {item : String} (hi : IsVariable item) {rest : List Value}
    (hb : source.Binds x (.list (.object t i :: rest))) {inside : List Move}
    (hopen : s.LoopOpen item x inside) :
    ChecksExactly g (start g source settings (.build kind lifetime)).1
      (start g source settings (.build kind lifetime)).2
      (((s.enterList item x).after inside).nextReference (item ++ "." ++ path)) t path := by
  have ht : source.LeadsTo g t := .of_mem (hb.mem_types rfl)
  have hk : Classifier.standard.classify x s.scopes s.globals =
      ⟨.global, "List<" ++ t.name ++ ">", false⟩ :=
    classify_global hx.rootOf hnone (hglobals.symm ▸ hb)
  have hlist : (s.nextReference x).typeName = "List<" ++ t.name ++ ">" := by
    rw [nextReference_standard hclass hx.trimmed hk]
  have hitem := hopen.scopeValue? (hn.isTypeName t ht hl) (hn.notReserved t ht hl).1 hlist
  have hclass' : ((s.enterList item x).after inside).classifier = .standard :=
    (after_keeps inside).2.2.1.trans hclass
  rw [nextReference_standard hclass' (hi.trimmed_dotted hp)
    (classify_item (hi.rootOf_dotted path) hitem)]
  exact checksExactly_start hn settings hreg hglob kind lifetime hl ht (hi.fieldsOf?_dotted path) rfl
    (.inr rfl)

end

/-- A session registers its globals, of which `x` is an object of a record type or a list of them.
The fields of `x`, or of the item of an open loop over `x`, are reported exactly if they are not
there, and `x` and the item are never missing. -/
theorem fields_exact (g : Graph) (source : GlobalSource) (settings : Settings) (kind : CatalogKind)
    (lifetime : Nat) (hreg : settings.registersTypes = true)
    (hglob : settings.checksGlobalFields = true) (hn : source.WellNamed g) {x item path : String}
    (hx : IsVariable x) (hi : IsVariable item) (hp : IsTrimmedPath path) {t : Descriptor}
    (hl : t.isLeaf = false) :
    let s₀ := (start g source settings (.build kind lifetime)).1
    let c₀ := (start g source settings (.build kind lifetime)).2
    ∀ script ms, ms <+: s₀.moves script → (s₀.after ms).scopes.scopeValue? x = none →
      (∀ i, source.Binds x (.object t i) →
        ChecksExactly g s₀ c₀ ((s₀.after ms).nextReference (x ++ "." ++ path)) t path) ∧
      ∀ i rest, source.Binds x (.list (.object t i :: rest)) →
        ∀ body inside, inside <+: ((s₀.after ms).enterList item x).moves body →
          (s₀.after ms).LoopOpen item x inside →
            ChecksExactly g s₀ c₀ ((((s₀.after ms).enterList item x).after inside).nextReference
              (item ++ "." ++ path)) t path := by
  intro s₀ c₀ script ms _ hnone
  have hclass : (s₀.after ms).classifier = .standard := (after_keeps ms).2.2.1
  have hglobals : (s₀.after ms).globals = source := (after_keeps ms).2.1
  refine ⟨fun i hb => ?_, fun i rest hb body inside _ hopen => ?_⟩
  · exact checksExactly_global hn settings hreg hglob kind lifetime hl hclass hglobals hx hp hnone hb
  · exact checksExactly_item hn settings hreg hglob kind lifetime hl hclass hglobals hx hp hnone hi
      hb hopen

theorem fields_exact_tree :
    let tree := Descriptor.record "Tree" 0
    let g : Graph := ⟨[[⟨"parent", false, tree⟩]]⟩
    let source := Globals.source (Table.empty.set "trees" (.list [.object tree 0]))
    let settings := { Settings.standard with checksGlobalFields := true }
    let s := (start g source settings (.build .expiring 0)).1
    let c := (start g source settings (.build .expiring 0)).2
    let ms := s.moves [.list "tree" "trees" [.reference "tree.parent.nope"]]
    ∃ ds, ((s.enterList "tree" "trees").nextReference "tree.parent.nope", ds) ∈
        (s.after ms).contributions g (s.catalogAfter g c ms) ∧
      .unknownField ∈ ds.map (·.code) := by
  intro tree g source settings s c ms
  have hb : source.Binds "trees" (.list [.object tree 0]) := Globals.binds_source rfl
  have honly : ∀ t, source.LeadsTo g t → t = tree := by
    rintro t ⟨u, hu, hr⟩
    have htypes : source.types = [tree] := rfl
    rw [htypes, List.mem_singleton] at hu
    subst hu
    exact hr.eq_of_own (by decide)
  have hn : source.WellNamed g := by
    refine ⟨fun t u ht hu _ _ _ => (honly t ht).trans (honly u hu).symm, fun t ht _ => ?_,
      fun t ht _ => ?_⟩
    · rw [honly t ht]
      decide
    · rw [honly t ht]
      decide
  have hx : IsVariable "trees" := by decide
  have hi : IsVariable "tree" := by decide
  have hp : IsTrimmedPath "parent.nope" := by decide
  have hopen : s.LoopOpen "tree" "trees" [] := by
    refine ⟨fun ms' hms => ?_, fun b => List.not_mem_nil⟩
    rw [List.prefix_nil.1 hms]
    exact Nat.lt_succ_self 0
  have hedit : ∀ e, Move.edit e ∉ ms := fun e => by
    simp [ms, moves, stepMoves, listMoves]
  have h := (fields_exact g source settings .expiring 0 rfl rfl hn hx hi hp rfl [] []
    List.nil_prefix rfl).2 0 [] hb [] [] List.nil_prefix hopen _ hedit ms (List.prefix_refl _)
  exact ⟨_, List.mem_cons_of_mem _ List.mem_cons_self,
    (h.2 _ h.1 _ (List.mem_cons_of_mem _ List.mem_cons_self)).1.2 (by decide)⟩

/-- Nothing is reported on an item whose loop was closed from inside its body. -/
theorem unreported_after_pop :
    let orders := Globals.source (Table.empty.set "orders" (.list [.object (.record "Order" 0) 0]))
    let settings := { Settings.standard with checksGlobalFields := true }
    let s := (start ⟨[[]]⟩ orders settings (.build .standard 0)).1
    let c := (start ⟨[[]]⟩ orders settings (.build .standard 0)).2
    Graph.leads ⟨[[]]⟩ (.record "Order" 0) "nope" = false ∧
      Answer.outcomesAll (s.run ⟨[[]]⟩ c
        [.list "order" "orders" [.pop, .reference "order.nope"], .validate]).1 = [.ok ()] :=
  ⟨by decide, rfl⟩

end Session

end Stencil
