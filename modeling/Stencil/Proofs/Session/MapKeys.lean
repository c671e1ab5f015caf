import Stencil.Proofs.Value.Data
import Stencil.Proofs.Session.Fields

/-!
# Keys of maps

Where the globals are data only, the catalog of a session knows no name, so every path on a concrete
type is reported. The keys of a map are no fields: the display name of a map is not concrete. But the
item of a loop over maps has the name of its type only, and that is concrete.
-/

namespace Stencil

theorem isConcrete_map (entries : List (Value × Value)) :
    Rule.isConcrete (Value.map entries).displayName = false := by
  have hm : "Map<".toList.isPrefixOf (Value.map entries).displayName.toList = true := by
    rw [List.isPrefixOf_iff_prefix, Value.displayName, String.append_assoc, String.append_assoc,
      String.append_assoc, String.toList_append]
    exact List.prefix_append ..
  rw [Rule.isConcrete, hm, Bool.not_true, Bool.and_false]

namespace Session

/-- The variable is bound to a value, in a scope or else globally. -/
def Holds (s : Session) (x : String) (v : Value) : Prop :=
  s.scopes.scopeValue? x = some (.value v) ∨
    s.scopes.scopeValue? x = none ∧
      (s.globals.contains x = true ∧ s.globals.get? x = some v ∨
        s.globals.contains x = false ∧ s.scopes.globalValue? x = some (.value v))

/-- Wherever a script stands that does not edit the rules, and whatever was checked or lapsed until
then, the reference is reported for its fields exactly if so expected. -/
def ReportsFields (g : Graph) (s : Session) (c : Catalog) (r : Reference) (expected : Prop) : Prop :=
  ∀ script, (∀ e, .edit e ∉ s.moves script) → ∀ ms, ms <+: s.moves script →
    Catalog.Checked g c (s.catalogAfter g c ms) ∧
    ∀ c', Catalog.Checked g c c' → ∀ ds, (r, ds) ∈ (s.after ms).contributions g c' →
      (.unknownField ∈ ds.map (·.code) ↔ expected)

variable {g : Graph} {c : Catalog} {s : Session} {x : String} {v : Value}

/-! ## What is recorded -/

theorem Holds.typeName (h : s.Holds x v) (hc : s.classifier = .standard) {text : String}
    (hr : rootOf (Text.trimmed text) = x) : (s.nextReference text).typeName = v.displayName := by
  show (s.classifier.classify (Text.trimmed text) s.scopes s.globals).typeName = v.displayName
  rw [hc, Classifier.classify_standard, hr]
  rcases h with h | ⟨hn, h⟩
  · rw [h]
  · rw [hn]
    rcases h with ⟨hx, hv⟩ | ⟨hx, hv⟩
    · simp only [hx, hv, if_true, Option.map_some, Option.getD_some]
    · simp only [hx, hv, Bool.false_eq_true, if_false, Binding.typeName]

/-! ## What is reported -/

theorem reportsFields_empty (hf : s.Fresh) (hb : Catalog.Bears g .empty c) {r : Reference}
    {expected : Prop}
    (he : ∀ ms, (∃ path, Chain.ChecksPath r ((s.after ms).context g) path) ↔ expected) :
    ReportsFields g s c r expected := by
  intro script hedit ms hms
  have hedit' : ∀ e, .edit e ∉ ms := fun e h => hedit e (hms.subset h)
  refine ⟨checked_catalogAfter hf.chain c hedit', fun c' hch ds hds => ?_⟩
  have hchain := (hf.accounts.after hedit').chain
  rw [(mem_codes_contributions hchain (hb.checked hch) hds).2, ← he ms]
  constructor
  · rintro (⟨h, -⟩ | ⟨-, path, hp, -⟩)
    · cases h
    · exact ⟨path, hp⟩
  · rintro ⟨path, hp⟩
    exact .inr ⟨rfl, path, hp, rfl⟩

theorem ownNames_of_isData {source : GlobalSource} (hd : source.IsData) (g : Graph)
    (settings : Settings) : ownNames g source settings = .empty := by
  cases hr : settings.registersTypes with
  | true => rw [ownNames_of_registers hr, GlobalSource.directory_of_isData hd g]
  | false => simp [ownNames, registered, hr, Directory.bindAll]

/-- The globals of a session are data only. No reference to a variable that holds a map is reported
for its fields; every dotted reference to the item of an open loop over a list is that begins with a
map. -/
theorem map_keys_reported (g : Graph) {source : GlobalSource} (hd : source.IsData)
    (settings : Settings) (kind : CatalogKind) (lifetime : Nat) :
    let s₀ := (start g source settings (.build kind lifetime)).1
    let c₀ := (start g source settings (.build kind lifetime)).2
    ∀ script ms, ms <+: s₀.moves script → ∀ x entries,
      ((s₀.after ms).Holds x (.map entries) → ∀ text, rootOf (Text.trimmed text) = x →
        ReportsFields g s₀ c₀ ((s₀.after ms).nextReference text) False) ∧
      ∀ rest, (s₀.after ms).Holds x (.list (.map entries :: rest)) → IsVariable x →
        ∀ item body inside, inside <+: ((s₀.after ms).enterList item x).moves body →
          (s₀.after ms).LoopOpen item x inside → IsVariable item → ∀ path, IsTrimmedPath path →
            ReportsFields g s₀ c₀ ((((s₀.after ms).enterList item x).after inside).nextReference
              (item ++ "." ++ path)) True := by
  intro s₀ c₀ script ms _ x entries
  have hf : s₀.Fresh := fresh_start ..
  have hb : Catalog.Bears g .empty c₀ :=
    ownNames_of_isData hd g settings ▸ bears_start_build g source settings kind lifetime
  have hclass : (s₀.after ms).classifier = .standard := (after_keeps ms).2.2.1
  refine ⟨fun hx text hr => reportsFields_empty hf hb fun ms' => ?_,
    fun rest hx hv item body inside _ hopen hi path hp => reportsFields_empty hf hb fun ms' => ?_⟩
  · refine iff_false_intro ?_
    rintro ⟨path, -, -, hc⟩
    rw [hx.typeName hclass hr, isConcrete_map] at hc
    cases hc
  · have hn : IsTypeName "Map" := by decide
    have hc : Rule.isConcrete "Map" = true := by decide
    have hlist : ((s₀.after ms).nextReference x).typeName = "List<" ++ "Map" ++ ">" :=
      hx.typeName hclass (hv.trimmed.symm ▸ hv.rootOf)
    have hclass' : (((s₀.after ms).enterList item x).after inside).classifier = .standard :=
      (after_keeps inside).2.2.1.trans hclass
    rw [nextReference_standard hclass' (hi.trimmed_dotted hp)
      (classify_item (hi.rootOf_dotted path) (hopen.scopeValue? hn (by decide) hlist))]
    exact iff_true_intro ⟨path, rfl, hi.fieldsOf?_dotted path, hc⟩

/-- A document with a list of one object. -/
theorem map_keys_reported_row :
    let rows := Value.ofDocument (.list [.object [("id", .int 1)]])
    let source := Globals.source (Table.empty.set "rows" rows)
    let settings := { Settings.standard with checksGlobalFields := true }
    let s := (start ⟨[]⟩ source settings (.build .standard 0)).1
    let c := (start ⟨[]⟩ source settings (.build .standard 0)).2
    let ms := s.moves [.list "row" "rows" [.reference "row.id"]]
    ∃ ds, ((s.enterList "row" "rows").nextReference "row.id", ds) ∈
        (s.after ms).contributions ⟨[]⟩ (s.catalogAfter ⟨[]⟩ c ms) ∧
      .unknownField ∈ ds.map (·.code) := by
  intro rows source settings s c ms
  have hd : source.IsData := Globals.isData_source fun v hv => by
    rw [List.mem_singleton.1 hv]
    exact Value.isData_ofDocument _
  have hx : s.Holds "rows" rows := .inr ⟨rfl, .inl ⟨rfl, rfl⟩⟩
  have hopen : s.LoopOpen "row" "rows" [] := by
    refine ⟨fun ms' hms => ?_, fun b => List.not_mem_nil⟩
    rw [List.prefix_nil.1 hms]
    exact Nat.lt_succ_self 0
  have hedit : ∀ e, Move.edit e ∉ ms := fun e => by
    simp [ms, moves, stepMoves, listMoves]
  have h := (map_keys_reported ⟨[]⟩ hd settings .standard 0 [] [] List.nil_prefix "rows" _).2 []
    hx (by decide) "row" [] [] List.nil_prefix hopen (by decide) "id" (by decide) _ hedit ms
    (List.prefix_refl _)
  exact ⟨_, List.mem_cons_of_mem _ List.mem_cons_self,
    (h.2 _ h.1 _ (List.mem_cons_of_mem _ List.mem_cons_self)).2 trivial⟩

end Session

end Stencil
