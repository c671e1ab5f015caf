import Stencil.Proofs.Expr.Occurrences
import Stencil.Proofs.Session.Moves

/-!
# The log of references

The references of a session are a log of the steps that it takes. Each step adds what it records
itself, numbered on from what is there and classified by the bindings that it finds, and the steps of a
body come behind the step that has the body. Only a reset takes references away.
-/

namespace Stencil

/-! ## Names that are read -/

theorem Names.trimmed {t : List Char} {name : String} (h : Names t name) : Text.trimmed name = name := by
  obtain ⟨rfl, hi, -⟩ := h
  have hb : ∀ c ∈ t, Text.isBlank c = false := fun c hc =>
    isBlank_of_nameChar (isNameChar_of_isIdentifier hi c hc)
  rw [Text.trimmed, String.toList_ofList, Text.trim_of_no_blank hb]

namespace Reader

/-- A reader that settings can name, or a chain of such readers. -/
inductive BuiltIn : Reader → Prop
  | kind (kind : ReaderKind) : BuiltIn kind.reader
  | chain {rs : List Reader} : (∀ r ∈ rs, BuiltIn r) → BuiltIn (.chain rs)

theorem BuiltIn.trimmed {r : Reader} (h : r.BuiltIn) (text : String) :
    ∀ name ∈ (r.read text).identifiers, Text.trimmed name = name := by
  induction h with
  | kind kind =>
    obtain ⟨os, hnames, -, ho⟩ := kind.drawn_read gathers_identifiers text
    intro name hn
    rw [← hnames] at hn
    obtain ⟨a, ha, rfl⟩ := List.mem_map.1 hn
    exact (ho a ha).2.2.trimmed
  | @chain rs _ ih =>
    show ∀ name ∈ ((Reader.chain rs).read text).identifiers, _
    unfold Reader.chain
    cases hf : rs.find? (·.supports text) with
    | some r =>
      simp only [hf]
      exact ih r (List.mem_of_find?_eq_some hf)
    | none =>
      simp only [hf]
      intro name hn
      cases hn

end Reader

namespace Session

/-! ## What a step records -/

/-- The texts of the references that a step records itself. -/
def texts (s : Session) : Step → List String
  | .reference text | .list _ text _ => [Text.trimmed text]
  | .expression text | .assign _ text | .escape text _ _ => (s.mentions text).map Text.trimmed
  | _ => []

/-- The reference to a text, by the bindings of the session, if it is the `n`-th one. -/
def entry (s : Session) (n : Nat) (text : String) : Reference :=
  .ofClassification text (s.classifier.classify text s.scopes s.globals)
    (s.settings.sourceLabel ++ ":ref:" ++ toString n)

/-- The references that a step records itself when it is taken. -/
def records (s : Session) (x : Step) : List Reference :=
  (s.texts x).mapIdx fun i text => s.entry (s.counter + (i + 1)) text

mutual

/-- The steps that a step takes, itself and then those of its body, each with the session in which it
is taken. -/
def stepTaken (g : Graph) (s : Session) (c : Catalog) : Step → List (Session × Step)
  | .list item list body => (s, .list item list body) :: taken g (s.enterList item list) c body
  | .macroBody name parameters body =>
    (s, .macroBody name parameters body) :: taken g (s.enterMacro name parameters) c body
  | .escape text name body => (s, .escape text name body) :: taken g (s.enterEscape text name) c body
  | x => [(s, x)]

/-- The steps that a script takes, in their order. -/
def taken (g : Graph) (s : Session) (c : Catalog) : List Step → List (Session × Step)
  | [] => []
  | x :: xs => stepTaken g s c x ++ taken g (step g s c x).2.1 (step g s c x).2.2 xs

end

/-- What the steps record themselves, in their order. -/
def recordsAll (vs : List (Session × Step)) : List Reference := vs.flatMap fun v => v.1.records v.2

variable {g : Graph} {s : Session} {c : Catalog}

theorem references_recordAll (s : Session) (texts : List String) :
    (s.recordAll texts).references = s.references ++ (texts.map Text.trimmed).mapIdx fun i text =>
      s.entry (s.counter + (i + 1)) text := by
  induction texts generalizing s with
  | nil => exact (List.append_nil _).symm
  | cons text texts ih =>
    rw [List.map_cons, List.mapIdx_cons]
    refine (ih (s.recordReference text)).trans ((List.append_assoc ..).trans ?_)
    refine congrArg (s.references ++ s.nextReference text :: List.mapIdx · _) (funext fun i => ?_)
    show s.entry (s.counter + 1 + (i + 1)) = _
    rw [Nat.add_assoc, Nat.add_comm 1]

theorem references_recordExpression (s : Session) (text : String) :
    (s.recordExpression text).references = s.references ++ s.records (.expression text) :=
  references_recordAll s (s.mentions text)

theorem references_enterMacro (s : Session) (name : String) (parameters : List String) :
    (s.enterMacro name parameters).references = s.references := by
  unfold enterMacro
  generalize hi : s.push .macroBody name = inner
  have hr : inner.references = s.references := hi ▸ rfl
  clear hi
  induction parameters generalizing inner with
  | nil => exact hr
  | cons p ps ih => exact ih (inner.define p (.marker objectType)) hr

/-! ## Logs -/

/-- The steps are taken with references that begin with `refs`, and each records behind the ones before;
at the end the references are `refs'`. -/
inductive Logs : List Reference → List (Session × Step) → List Reference → Prop
  | nil {refs : List Reference} : Logs refs [] refs
  | cons {s : Session} {x : Step} {vs : List (Session × Step)} {refs' : List Reference} :
      Logs (s.references ++ s.records x) vs refs' → Logs s.references ((s, x) :: vs) refs'

namespace Logs

variable {refs refs' refs'' : List Reference} {vs vs' : List (Session × Step)} {x : Step}

theorem single (h : refs' = s.references ++ s.records x) : Logs s.references [(s, x)] refs' := by
  rw [h]
  exact .cons .nil

theorem append (h : Logs refs vs refs') (h' : Logs refs' vs' refs'') : Logs refs (vs ++ vs') refs'' := by
  induction h with
  | nil => exact h'
  | cons _ ih => exact .cons (ih h')

theorem eq_append (h : Logs refs vs refs') : refs' = refs ++ recordsAll vs := by
  induction h with
  | nil => exact (List.append_nil _).symm
  | cons _ ih =>
    rw [ih, List.append_assoc]
    rfl

theorem references_eq {before later : List (Session × Step)}
    (h : Logs refs (before ++ (s, x) :: later) refs') : s.references = refs ++ recordsAll before := by
  induction before generalizing refs with
  | nil =>
    cases h
    exact (List.append_nil _).symm
  | cons v before ih =>
    cases h with
    | cons h =>
      rw [ih h, List.append_assoc]
      rfl

end Logs

mutual

theorem logs_step (g : Graph) (s : Session) (c : Catalog) : ∀ x : Step,
    (∀ v ∈ s.stepTaken g c x, v.2 ≠ .reset) →
    Logs s.references (s.stepTaken g c x) (s.step g c x).2.1.references
  | .reference text, _ => .single rfl
  | .push _ _, _ | .pop, _ | .define _ _, _ | .defineGlobal _ _, _ | .importNamespace _, _ | .state, _
  | .look _, _ | .references, _ | .validate, _ | .settings, _ => .single (List.append_nil _).symm
  | .expression text, _ => .single (references_recordExpression s text)
  | .assign name text, _ => .single (references_recordExpression s text)
  | .edit change, _ => .single ((references_edit s change).trans (List.append_nil _).symm)
  | .reset, h => absurd rfl (h _ List.mem_cons_self)
  | .list item list body, h => by
    have hb := logs_run g (s.enterList item list) c body fun v hv => h v (List.mem_cons_of_mem _ hv)
    exact .cons hb
  | .macroBody name parameters body, h => by
    have hb := logs_run g (s.enterMacro name parameters) c body fun v hv =>
      h v (List.mem_cons_of_mem _ hv)
    have hr : s.records (.macroBody name parameters body) = [] := rfl
    rw [references_enterMacro] at hb
    refine .cons ?_
    rw [hr, List.append_nil]
    exact hb
  | .escape text name body, h => by
    have hb := logs_run g (s.enterEscape text name) c body fun v hv => h v (List.mem_cons_of_mem _ hv)
    have hr : (s.enterEscape text name).references = s.references ++ s.records (.expression text) :=
      references_recordExpression s text
    rw [hr] at hb
    exact .cons hb

theorem logs_run (g : Graph) (s : Session) (c : Catalog) : ∀ xs : List Step,
    (∀ v ∈ s.taken g c xs, v.2 ≠ .reset) →
    Logs s.references (s.taken g c xs) (s.run g c xs).2.1.references
  | [], _ => .nil
  | x :: xs, h => by
    have hx := logs_step g s c x fun v hv => h v (List.mem_append_left _ hv)
    have hxs := logs_run g (s.step g c x).2.1 (s.step g c x).2.2 xs fun v hv =>
      h v (List.mem_append_right _ hv)
    exact hx.append hxs

end

/-- If moves lead from where a step is taken to where its body begins, they lead to all its steps. -/
theorem after_of_mem_cons {inner : Session} {x : Step} {vs : List (Session × Step)} {ms : List Move}
    (hi : s.after ms = inner) (h : ∀ v ∈ vs, ∃ ms', v.1 = inner.after ms') :
    ∀ v ∈ (s, x) :: vs, ∃ ms', v.1 = s.after ms' := by
  intro v hv
  rcases List.mem_cons.1 hv with rfl | hv
  · exact ⟨[], rfl⟩
  obtain ⟨ms', h⟩ := h v hv
  exact ⟨ms ++ ms', by rw [after_append, hi, h]⟩

mutual

theorem stepTaken_after (g : Graph) (s : Session) (c : Catalog) : ∀ x : Step,
    ∀ v ∈ s.stepTaken g c x, ∃ ms, v.1 = s.after ms
  | .list item list body =>
    have hi : s.after (s.listMoves item list) = s.enterList item list := rfl
    after_of_mem_cons hi (taken_after g (s.enterList item list) c body)
  | .macroBody name parameters body =>
    after_of_mem_cons (after_macroMoves name parameters)
      (taken_after g (s.enterMacro name parameters) c body)
  | .escape text name body =>
    after_of_mem_cons (after_escapeMoves text name) (taken_after g (s.enterEscape text name) c body)
  | .reference _ | .expression _ | .assign _ _ | .push _ _ | .pop | .define _ _ | .defineGlobal _ _
  | .importNamespace _ | .edit _ | .state | .look _ | .references | .validate | .settings | .reset =>
    after_of_mem_cons after_nil (fun _ hv => nomatch hv)

/-- A step is taken in a session to which some moves have led. -/
theorem taken_after (g : Graph) (s : Session) (c : Catalog) : ∀ xs : List Step,
    ∀ v ∈ s.taken g c xs, ∃ ms, v.1 = s.after ms
  | [], v, hv => by cases hv
  | x :: xs, v, hv => by
    rcases List.mem_append.1 hv with hv | hv
    · exact stepTaken_after g s c x v hv
    obtain ⟨ms, h⟩ := taken_after g (s.step g c x).2.1 (s.step g c x).2.2 xs v hv
    have hs : (s.step g c x).2.1 = s.after (s.stepMoves x) := congrArg (·.1) (step_spec g s c x).1
    refine ⟨s.stepMoves x ++ ms, ?_⟩
    rw [after_append, ← hs, h]

end

/-! ## Numbers -/

/-- The counter tells how many references there are, and each has its own number, from one on. -/
structure Counted (s : Session) : Prop where
  counter : s.counter = s.references.length
  source : ∀ n r, s.references[n]? = some r →
    r.source = s.settings.sourceLabel ++ ":ref:" ++ toString (n + 1)

namespace Counted

theorem recordReference (h : s.Counted) (text : String) : (s.recordReference text).Counted := by
  have hlen : (s.recordReference text).references.length = s.references.length + 1 :=
    List.length_append
  refine ⟨?_, fun n r hr => ?_⟩
  · rw [hlen, ← h.counter]
    rfl
  rcases Nat.lt_trichotomy n s.references.length with hn | rfl | hn
  · exact h.source n r ((List.getElem?_append_left hn).symm.trans hr)
  · obtain rfl : s.nextReference text = r :=
      Option.some.inj (List.getElem?_concat_length.symm.trans hr)
    rw [← h.counter]
    rfl
  · rw [List.getElem?_eq_none (Nat.le_trans (Nat.le_of_eq hlen) hn)] at hr
    cases hr

theorem edit (h : s.Counted) (e : ChainEdit) : (s.edit e).2.Counted := by
  unfold Session.edit
  split <;> exact ⟨h.counter, h.source⟩

theorem perform (h : s.Counted) (m : Move) : (s.perform m).Counted := by
  cases m with
  | record text => exact h.recordReference text
  | edit e => exact h.edit e
  | reset => exact ⟨rfl, fun n r hr => nomatch hr⟩
  | _ => exact ⟨h.counter, h.source⟩

theorem after (h : s.Counted) (ms : List Move) : (s.after ms).Counted := by
  induction ms generalizing s with
  | nil => exact h
  | cons m ms ih => exact ih (h.perform m)

end Counted

/-! ## Any script -/

/-- The references of a new session are what the steps of its script, none of them a reset, record one
after the other; wherever a step is taken, the references are those of the steps before it, and what it
records comes next and stays. Their sources have the numbers in order. The answer to an expression tells
how many it records. With a built-in reader the texts recorded of an expression are the names read. -/
theorem references_logged (g : Graph) {s : Session} (hs : s.references = []) (hn : s.counter = 0)
    (c : Catalog) {xs : List Step} (hx : ∀ v ∈ s.taken g c xs, v.2 ≠ .reset) :
    let refs := (s.run g c xs).2.1.references
    refs = recordsAll (s.taken g c xs) ∧
    (∀ before s' x later, s.taken g c xs = before ++ (s', x) :: later →
      s'.references = recordsAll before ∧ s'.references ++ s'.records x <+: refs ∧
      ∀ text, x = .expression text → ∀ c', (s'.step g c' x).1 = .count (s'.records x).length) ∧
    (∀ n r, refs[n]? = some r → r.source = s.settings.sourceLabel ++ ":ref:" ++ toString (n + 1)) ∧
    (s.reader.BuiltIn → ∀ v ∈ s.taken g c xs, ∀ text,
      (v.1.mentions text).map Text.trimmed = v.1.mentions text) := by
  intro refs
  have hlogs : Logs [] (s.taken g c xs) refs := hs ▸ logs_run g s c xs hx
  have hnew : s.Counted := ⟨hn.trans (congrArg List.length hs.symm), fun n r h => by
    rw [hs] at h
    cases h⟩
  have hend : (s.run g c xs).2.1 = s.after (s.moves xs) := congrArg (·.1) (run_spec g s c xs).1
  have hcount : (s.run g c xs).2.1.Counted := hend ▸ hnew.after (s.moves xs)
  have hlabel : (s.run g c xs).2.1.settings = s.settings := hend ▸ (after_keeps (s.moves xs)).1
  refine ⟨hlogs.eq_append, fun before s' x later hv => ⟨?_, ?_, ?_⟩, ?_, fun hr v hv text => ?_⟩
  · rw [hv] at hlogs
    exact hlogs.references_eq
  · rw [hv] at hlogs
    refine ⟨recordsAll later, ?_⟩
    rw [hlogs.references_eq, hlogs.eq_append]
    simp [recordsAll]
  · rintro text rfl c'
    rw [records, List.length_mapIdx, texts, List.length_map]
    rfl
  · exact hlabel ▸ hcount.source
  · obtain ⟨ms, hms⟩ := taken_after g s c xs v hv
    have hreader : v.1.reader = s.reader := hms ▸ (after_keeps ms).2.2.2
    refine (List.map_congr_left fun name hname => ?_).trans (List.map_id _)
    rw [mentions, hreader] at hname
    exact hr.trimmed text name hname

/-- A name is assigned from itself, and loops, escapes and white space follow. -/
theorem references_logged_nested :
    let s := (start ⟨[]⟩ (Globals.source .empty) .standard (.build .standard 0)).1
    let c := Catalog.build .standard 0
    let xs : List Step := [.assign "n" "n + m", .list "o" " n " [.reference " o.id ",
      .macroBody "cell" ["o"] [.expression "o > n"]], .escape "o * 2" "safe" [.reference "safe"]]
    let refs := (s.run ⟨[]⟩ c xs).2.1.references
    refs = recordsAll (s.taken ⟨[]⟩ c xs) ∧
    (recordsAll (s.taken ⟨[]⟩ c xs)).map (fun r => (r.expression, r.kind, r.source)) =
      [("n", .undefined, "template:ref:1"), ("m", .undefined, "template:ref:2"),
        ("n", .global, "template:ref:3"), ("o.id", .scopeItem, "template:ref:4"),
        ("o", .scopeItem, "template:ref:5"), ("n", .global, "template:ref:6"),
        ("o", .undefined, "template:ref:7"), ("safe", .scopeItem, "template:ref:8")] := by
  intro s c xs refs
  have hx : ∀ v ∈ s.taken ⟨[]⟩ c xs, v.2 ≠ .reset := by
    intro v hv
    simp only [xs, taken, stepTaken, List.cons_append, List.nil_append, List.mem_cons,
      List.not_mem_nil, or_false] at hv
    rcases hv with rfl | rfl | rfl | rfl | rfl | rfl | rfl <;> exact nofun
  exact ⟨(references_logged ⟨[]⟩ rfl rfl c hx).1, by decide +kernel⟩

end Session

end Stencil
