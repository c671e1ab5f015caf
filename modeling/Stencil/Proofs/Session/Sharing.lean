import Stencil.Proofs.Session.Moves
import Stencil.Proofs.Session.Starting

/-!
# Sessions that share a catalog

Sessions over one catalog meet in the names that it has. Starting a session binds names for the records
of its globals, and no check changes any, nor does a shape that lapses. A name stays with the record that
it was given to first, so an earlier session shows in a later one where it took a name: there the later
one finds another record, or any at all. In all else a session is as if it had been alone.
-/

namespace Stencil

/-- Two sessions over one catalog. -/
structure Shared where
  first : Session
  second : Session
  catalog : Catalog

/-- A move of either of two sessions, or a lapse of the shapes that are not kept. -/
inductive Turn
  | first (m : Move)
  | second (m : Move)
  | lapse (kept : Shape → Bool)

namespace Turn

def edits : Turn → Prop
  | first m | second m => ∃ e, m = .edit e
  | lapse _ => False

def second? : Turn → Option Move
  | second m => some m
  | first _ | lapse _ => none

end Turn

namespace Shared

def take (g : Graph) (p : Shared) : Turn → Shared
  | .first m => { p with first := p.first.perform m, catalog := p.first.asked g p.catalog m }
  | .second m => { p with second := p.second.perform m, catalog := p.second.asked g p.catalog m }
  | .lapse kept =>
    let store := p.catalog.store
    { p with catalog := { p.catalog with store := { store with shapes := store.shapes.filter kept } } }

def after (g : Graph) (p : Shared) (turns : List Turn) : Shared := turns.foldl (take g) p

end Shared

/-! ## Checks over names that agree -/

namespace Catalog.Bears

variable {g : Graph} {d d' : Directory} {c c' : Catalog} {ctx : Context}

theorem evaluateAll (h : Bears g d c) (h' : Bears g d' c') (hg : ctx.graph = g) {rs : List Reference}
    (hr : ∀ r ∈ rs, d.Agree d' ctx r) :
    (Chain.standard.evaluateAll ctx rs c).1 = (Chain.standard.evaluateAll ctx rs c').1 := by
  induction rs generalizing c c' with
  | nil => rfl
  | cons r rs ih =>
    obtain ⟨hd, hb⟩ := h.evaluate h' hg (hr r List.mem_cons_self)
    have hds := ih hb (kept ctx r c' hg h') fun r' hm => hr r' (List.mem_cons_of_mem _ hm)
    simp only [Chain.evaluateAll, hd, hds]

end Catalog.Bears

namespace Session

section
variable {g : Graph} {d d' : Directory} {s : Session} {c c' : Catalog}
  (hk : s.chain = .standard) (h : Catalog.Bears g d c) (h' : Catalog.Bears g d' c')
include hk h h'

theorem contributions_agree {r : Reference} (hr : d.Agree d' (s.context g) r) {ds ds' : List Diagnostic}
    (hd : (r, ds) ∈ s.contributions g c) (hd' : (r, ds') ∈ s.contributions g c') : ds = ds' := by
  unfold contributions at hd hd'
  rw [hk] at hd hd'
  have kept := fun d r c => Catalog.Bears.kept (d := d) (s.context g) r c rfl
  obtain ⟨-, c₁, h₁, rfl⟩ := Chain.exists_of_mem_contributions (kept d) h hd
  obtain ⟨-, c₁', h₁', rfl⟩ := Chain.exists_of_mem_contributions (kept d') h' hd'
  exact (h₁.evaluate h₁' rfl hr).1

variable (hr : ∀ r ∈ s.references, d.Agree d' (s.context g) r)
include hr

theorem report_agrees : (s.report g c).1 = (s.report g c').1 := by
  unfold report
  rw [hk]
  exact congrArg Report.mk (h.evaluateAll h' rfl hr)

theorem validate_agrees : (s.validate g c).1 = (s.validate g c').1 := by
  rw [validate_fst, validate_fst, report_agrees hk h h' hr]

theorem finish_agrees : (s.finish g c).1 = (s.finish g c').1 := by
  have hv := validate_agrees (s := { s with scopes := s.scopes.popAll }) hk h h' hr
  exact congrArg (·.map fun _ => s.references) hv

end

end Session

/-! ## Taking turns -/

namespace Shared

variable {g : Graph} {d : Directory} {p : Shared}

theorem second_after (turns : List Turn) :
    (p.after g turns).second = p.second.after (turns.filterMap Turn.second?) := by
  induction turns generalizing p with
  | nil => rfl
  | cons t turns ih => cases t <;> exact ih

theorem bears_after (h₁ : p.first.chain = .standard) (h₂ : p.second.chain = .standard)
    (h : Catalog.Bears g d p.catalog) {turns : List Turn} (he : ∀ t ∈ turns, ¬ t.edits) :
    Catalog.Bears g d (p.after g turns).catalog := by
  induction turns generalizing p with
  | nil => exact h
  | cons t turns ih =>
    obtain ⟨ht, he'⟩ := List.forall_mem_cons.1 he
    cases t with
    | first m =>
      have hb := Session.asked_of_standard Catalog.Bears.kept h₁ h m
      exact ih ((Session.chain_perform fun e hm => ht ⟨e, hm⟩).trans h₁) h₂ hb he'
    | second m =>
      have hb := Session.asked_of_standard Catalog.Bears.kept h₂ h m
      exact ih h₁ ((Session.chain_perform fun e hm => ht ⟨e, hm⟩).trans h₂) hb he'
    | lapse kept =>
      exact ih h₁ h₂ ⟨h.1.lapse List.filter_sublist, h.2⟩ he'

end Shared

/-! ## What one session shows of another -/

/-- The first names take a name that was free, and not for the type that the second would bind it to. -/
def Captures (c : Catalog) (names names' : Directory) (n : String) : Prop :=
  c.store.alias? n = none ∧ names.get? n ≠ none ∧ names.get? n ≠ names'.get? n

theorem get?_of_not_captures {c : Catalog} {ts ts' : List Descriptor} {n : String}
    (h : ¬ Captures c (Directory.bindAll .empty ts) (Directory.bindAll .empty ts') n) :
    (Directory.bindAll (Directory.bindAll c.store.aliases ts) ts').get? n =
      (Directory.bindAll c.store.aliases ts').get? n := by
  rw [Directory.get?_bindAll_eq, Directory.get?_bindAll_eq c.store.aliases ts,
    Directory.get?_bindAll_eq c.store.aliases ts', Option.or_assoc]
  cases hc : c.store.aliases.get? n with
  | some t => rfl
  | none =>
    rw [Option.none_or, Option.none_or]
    by_cases hn : (Directory.bindAll .empty ts).get? n = none
    · rw [hn, Option.none_or]
    by_cases he : (Directory.bindAll .empty ts).get? n = (Directory.bindAll .empty ts').get? n
    · rw [he, Option.or_self]
    · exact absurd ⟨hc, hn, he⟩ h

namespace Session

variable {g : Graph}

/-- The fields of the reference are looked up under a name that was captured. -/
def Disturbs (g : Graph) (c : Catalog) (names : Directory) (s : Session) (r : Reference) : Prop :=
  (∃ path, Chain.ChecksPath r (s.context g) path) ∧
    Captures c names (ownNames g s.globals s.settings) r.typeName

theorem agree_of_not_disturbs {s : Session} {c : Catalog} {source : GlobalSource} {settings : Settings}
    {r : Reference} (h : ¬ s.Disturbs g c (ownNames g source settings) r) :
    let ts := (registered source settings).flatMap g.preorder
    let ts' := (registered s.globals s.settings).flatMap g.preorder
    Directory.Agree (Directory.bindAll (Directory.bindAll c.store.aliases ts) ts')
      (Directory.bindAll c.store.aliases ts') (s.context g) r :=
  fun path hp => get?_of_not_captures fun hc => h ⟨⟨path, hp⟩, hc⟩

/-- A session that shares its catalog with one that was started earlier goes through the same states as
alone, and finds the same on each reference unless its fields are looked up under a name that the
earlier one captured; without such references the reports agree. Which shapes lapsed until then, or were
asked for in checks, makes no difference. -/
theorem disturbed_by_names_only (g : Graph) {c : Catalog} (hc : c.Reachable g)
    (source source' : GlobalSource) (settings settings' : Settings) {before : List Move}
    (hb : ∀ e, .edit e ∉ before) {turns : List Turn} (ht : ∀ t ∈ turns, ¬ t.edits) :
    let first := start g source settings c
    let lone := start g source' settings' c
    let own := turns.filterMap Turn.second?
    let alone := lone.1.after own
    let names := ownNames g source settings
    Catalog.Checked g first.2 (first.1.catalogAfter g first.2 before) ∧
    Catalog.Checked g lone.2 (lone.1.catalogAfter g lone.2 own) ∧
    ∀ c₁ c', Catalog.Checked g first.2 c₁ → Catalog.Checked g lone.2 c' →
      let second := start g source' settings' c₁
      let together := Shared.after g ⟨first.1.after before, second.1, second.2⟩ turns
      together.second = alone ∧
      (∀ r ds ds', (r, ds) ∈ alone.contributions g together.catalog →
        (r, ds') ∈ alone.contributions g c' → ¬ alone.Disturbs g c names r → ds = ds') ∧
      ((∀ r ∈ alone.references, ¬ alone.Disturbs g c names r) →
        (alone.report g together.catalog).1 = (alone.report g c').1 ∧
        (alone.validate g together.catalog).1 = (alone.validate g c').1 ∧
        (alone.finish g together.catalog).1 = (alone.finish g c').1) := by
  intro first lone own alone names
  have hown : ∀ e, .edit e ∉ own := by
    intro e hm
    obtain ⟨t, hm, he⟩ := List.mem_filterMap.1 hm
    cases t with
    | second m => exact ht _ hm ⟨e, Option.some.inj he⟩
    | first m => cases he
    | lapse kept => cases he
  have hk₁ : first.1.chain = .standard := rfl
  have hk₂ : lone.1.chain = .standard := rfl
  refine ⟨checked_catalogAfter hk₁ _ hb, checked_catalogAfter hk₂ _ hown, fun c₁ c' hc₁ hc' => ?_⟩
  intro second together
  have hk : alone.chain = .standard := chain_after hown
  have hsame : together.second = alone := Shared.second_after turns
  have hkeep : alone.globals = source' ∧ alone.settings = settings' :=
    ⟨(after_keeps own).2.1, (after_keeps own).1⟩
  have hb₀ : Catalog.Bears g c.store.aliases c := ⟨hc.settled, rfl⟩
  -- The names of the first session come before those of the second, or are not there at all.
  have h₁ : Catalog.Bears g _ c₁ := (bears_start hb₀ source settings).checked hc₁
  have hd : Catalog.Bears g _ together.catalog :=
    Shared.bears_after (chain_after hb) hk₂ (bears_start h₁ source' settings') ht
  have hd' : Catalog.Bears g _ c' := (bears_start hb₀ source' settings').checked hc'
  have hagree := fun r (hr : ¬ alone.Disturbs g c names r) => agree_of_not_disturbs hr
  simp only [hkeep.1, hkeep.2] at hagree
  refine ⟨hsame, fun r ds ds' hm hm' hr => ?_, fun hr => ?_⟩
  · exact contributions_agree hk hd hd' (hagree r hr) hm hm'
  · have hall := fun r hm => hagree r (hr r hm)
    exact ⟨report_agrees hk hd hd' hall, validate_agrees hk hd hd' hall, finish_agrees hk hd hd' hall⟩

/-- All shapes lapse between the checks of the two sessions. -/
theorem disturbed_by_names_only_invoice :
    let g : Graph := ⟨[[], [⟨"total", false, .record "Invoice" 1⟩]]⟩
    let source := Globals.source (Table.empty.set "order" (.object (.record "Order" 0) 0))
    let source' := Globals.source (Table.empty.set "invoice" (.object (.record "Invoice" 1) 0))
    let settings := { Settings.standard with checksGlobalFields := true }
    let c := Catalog.build .expiring 1
    let turns : List Turn := [.second (.record "invoice.total"), .first (.record "order.id"),
      .first .check, .lapse fun _ => false, .second .check]
    let first := start g source settings c
    let lone := start g source' settings c
    let second := start g source' settings first.2
    let together := Shared.after g ⟨first.1, second.1, second.2⟩ turns
    let alone := lone.1.after (turns.filterMap Turn.second?)
    together.second = alone ∧ (alone.report g together.catalog).1 = (alone.report g lone.2).1 := by
  intro g source source' settings c turns first lone second together alone
  have hb : ∀ e, Move.edit e ∉ ([] : List Move) := fun _ => List.not_mem_nil
  have ht : ∀ t ∈ turns, ¬ t.edits := by simp [turns, Turn.edits]
  have h := (disturbed_by_names_only g (.build .expiring 1) source source' settings settings hb ht).2.2
    first.2 lone.2 .refl .refl
  refine ⟨h.1, (h.2.2 fun r hr hd => hd.2.2.1 ?_).1⟩
  have hr : r = lone.1.nextReference "invoice.total" := List.mem_singleton.1 hr
  have hn : r.typeName ≠ "Order" := by
    rw [hr]
    decide
  exact (get?_ownNames (t := .record "Order" 0) rfl rfl (by decide) rfl r.typeName).trans (if_neg hn)

/-- A record loses its name to one of another session. -/
theorem order_captured :
    let g : Graph := ⟨[[], [⟨"total", false, .record "Order" 1⟩]]⟩
    let source := Globals.source (Table.empty.set "first" (.object (.record "Order" 0) 0))
    let source' := Globals.source (Table.empty.set "order" (.object (.record "Order" 1) 0))
    let settings := { Settings.standard with checksGlobalFields := true }
    let c := Catalog.build .standard 0
    let alone := start g source' settings c
    let later := start g source' settings (start g source settings c).2
    ((alone.1.recordReference "order.total").report g alone.2).1 ≠
      ((later.1.recordReference "order.total").report g later.2).1 := by
  intro g source source' settings c alone later heq
  have hb : Catalog.Bears g .empty c := ⟨(Catalog.Reachable.build .standard 0).settled, rfl⟩
  have hn : (ownNames g source settings).get? "Order" = some (.record "Order" 0) :=
    get?_ownNames (t := .record "Order" 0) rfl rfl (by decide) rfl "Order"
  have hn' : (ownNames g source' settings).get? "Order" = some (.record "Order" 1) :=
    get?_ownNames (t := .record "Order" 1) rfl rfl (by decide) rfl "Order"
  have hp : Chain.ChecksPath (alone.1.nextReference "order.total") (alone.1.context g) "total" :=
    ⟨by decide, by decide, by decide⟩
  have halone := mem_report_unknownField rfl (bears_start hb source' settings) hp rfl
  have hlater := mem_report_unknownField rfl
    (bears_start (bears_start hb source settings) source' settings) hp rfl
  -- Alone the name is that of the second record, which has the field; the first record has none.
  have htrue : ((ownNames g source' settings).get? "Order").any (g.leads · "total") = true := by
    rw [hn']
    decide
  have hfalse : (((ownNames g source settings).get? "Order").or
      ((ownNames g source' settings).get? "Order")).any (g.leads · "total") = false := by
    rw [hn]
    decide
  rw [Directory.get?_bindAll_eq] at hlater
  have hmem := hlater.2 hfalse
  have hnot := halone.1 (by rw [heq]; exact hmem)
  exact Bool.false_ne_true (hnot.symm.trans htrue)

end Session

end Stencil
