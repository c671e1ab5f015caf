import Stencil.Check.Chain

/-!
# Chains in a row

A chain with the rules of another one added goes on with those rules unless it stops before: unless
one of its own rules is asked and claims the reference. The rules are asked one after the other over
the catalog that the ones before leave, and what is reported is what they say, each in its own name.
-/

namespace Stencil

/-- The rule asks the catalog nothing that would change it. -/
def Rule.Pure (rule : Rule) : Prop :=
  ∀ r ctx c, (rule.skips r ctx c).2 = c ∧ (rule.check r ctx c).2 = c

/-- To skip a reference the rule does not ask the catalog. -/
def Rule.Upfront (rule : Rule) : Prop := ∀ r ctx c c', rule.skips r ctx c' = ((rule.skips r ctx c).1, c')

namespace Chain

/-- Over the catalog `c` the rules come to this one, which does not skip and checks over `c'`. -/
inductive Asks (r : Reference) (ctx : Context) : List Rule → Catalog → Rule → Catalog → Prop
  | here {rule : Rule} {rules : List Rule} {c : Catalog} : (rule.skips r ctx c).1 = false →
      Asks r ctx (rule :: rules) c rule (rule.skips r ctx c).2
  | skipped {rule rule' : Rule} {rules : List Rule} {c c' : Catalog} : (rule.skips r ctx c).1 = true →
      Asks r ctx rules (rule.skips r ctx c).2 rule' c' → Asks r ctx (rule :: rules) c rule' c'
  | passed {rule rule' : Rule} {rules : List Rule} {c c' : Catalog} : (rule.skips r ctx c).1 = false →
      (rule.check r ctx (rule.skips r ctx c).2).1.claims = false →
      Asks r ctx rules (rule.check r ctx (rule.skips r ctx c).2).2 rule' c' →
      Asks r ctx (rule :: rules) c rule' c'

/-- A rule that is asked claims the reference. -/
def Stops (r : Reference) (ctx : Context) (rules : List Rule) (c : Catalog) : Prop :=
  ∃ rule c', Asks r ctx rules c rule c' ∧ (rule.check r ctx c').1.claims = true

section
variable {r : Reference} {ctx : Context} {rule : Rule} {rules : List Rule} {c : Catalog}

theorem rules_foldl_add (rules : List Rule) (k : Chain) : (rules.foldl add k).rules = k.rules ++ rules := by
  induction rules generalizing k with
  | nil => simp
  | cons rule rules ih => simp [ih, add]

/-! ## One rule more -/

theorem asks_cons {rule' : Rule} {c' : Catalog} : Asks r ctx (rule :: rules) c rule' c' ↔
    if (rule.skips r ctx c).1 then Asks r ctx rules (rule.skips r ctx c).2 rule' c'
    else (rule' = rule ∧ c' = (rule.skips r ctx c).2) ∨
      (rule.check r ctx (rule.skips r ctx c).2).1.claims = false ∧
        Asks r ctx rules (rule.check r ctx (rule.skips r ctx c).2).2 rule' c' := by
  by_cases hs : (rule.skips r ctx c).1 = true
  · rw [if_pos hs]
    constructor
    · intro h
      cases h with
      | here h => rw [hs] at h; cases h
      | skipped _ h => exact h
      | passed h _ _ => rw [hs] at h; cases h
    · exact .skipped hs
  · rw [if_neg hs]
    have hs' : (rule.skips r ctx c).1 = false := by simpa using hs
    constructor
    · intro h
      cases h with
      | here _ => exact .inl ⟨rfl, rfl⟩
      | skipped h _ => exact absurd h hs
      | passed _ hc h => exact .inr ⟨hc, h⟩
    · rintro (⟨rfl, rfl⟩ | ⟨hc, h⟩)
      · exact .here hs'
      · exact .passed hs' hc h

theorem stops_cons_of_skipped (hs : (rule.skips r ctx c).1 = true) :
    Stops r ctx (rule :: rules) c ↔ Stops r ctx rules (rule.skips r ctx c).2 := by
  simp [Stops, asks_cons, hs]

theorem evaluateRules_cons_of_skipped (hs : (rule.skips r ctx c).1 = true) :
    evaluateRules r ctx (rule :: rules) c = evaluateRules r ctx rules (rule.skips r ctx c).2 := by
  simp [evaluateRules, hs]

section
variable (hs : (rule.skips r ctx c).1 = false)
include hs

theorem stops_cons_of_claims (hc : (rule.check r ctx (rule.skips r ctx c).2).1.claims = true) :
    Stops r ctx (rule :: rules) c :=
  ⟨rule, _, .here hs, hc⟩

theorem evaluateRules_cons_of_claims (hc : (rule.check r ctx (rule.skips r ctx c).2).1.claims = true) :
    evaluateRules r ctx (rule :: rules) c =
      (diagnostics rule r (rule.check r ctx (rule.skips r ctx c).2).1,
        (rule.check r ctx (rule.skips r ctx c).2).2) := by
  simp [evaluateRules, hs, hc]

variable (hc : (rule.check r ctx (rule.skips r ctx c).2).1.claims = false)
include hc

theorem stops_cons_of_passed : Stops r ctx (rule :: rules) c ↔
    Stops r ctx rules (rule.check r ctx (rule.skips r ctx c).2).2 := by
  constructor
  · rintro ⟨rule', c', h, hcl⟩
    cases h with
    | here _ => rw [hc] at hcl; cases hcl
    | skipped h _ => rw [hs] at h; cases h
    | passed _ _ h => exact ⟨rule', c', h, hcl⟩
  · rintro ⟨rule', c', h, hcl⟩
    exact ⟨rule', c', .passed hs hc h, hcl⟩

theorem evaluateRules_cons_of_passed : evaluateRules r ctx (rule :: rules) c =
    (diagnostics rule r (rule.check r ctx (rule.skips r ctx c).2).1 ++
        (evaluateRules r ctx rules (rule.check r ctx (rule.skips r ctx c).2).2).1,
      (evaluateRules r ctx rules (rule.check r ctx (rule.skips r ctx c).2).2).2) := by
  simp [evaluateRules, hs, hc]

end

/-! ## Rules in a row -/

theorem evaluateRules_append_of_stops {more : List Rule} (h : Stops r ctx rules c) :
    evaluateRules r ctx (rules ++ more) c = evaluateRules r ctx rules c := by
  obtain ⟨rule, c', h, hcl⟩ := h
  induction h with
  | here hs => rw [List.cons_append, evaluateRules_cons_of_claims hs hcl, evaluateRules_cons_of_claims hs hcl]
  | skipped hs _ ih =>
    rw [List.cons_append, evaluateRules_cons_of_skipped hs, evaluateRules_cons_of_skipped hs, ih hcl]
  | passed hs hc _ ih =>
    rw [List.cons_append, evaluateRules_cons_of_passed hs hc, evaluateRules_cons_of_passed hs hc, ih hcl]

theorem evaluateRules_append_of_not_stops {more : List Rule} (h : ¬ Stops r ctx rules c) :
    evaluateRules r ctx (rules ++ more) c =
      ((evaluateRules r ctx rules c).1 ++
          (evaluateRules r ctx more (evaluateRules r ctx rules c).2).1,
        (evaluateRules r ctx more (evaluateRules r ctx rules c).2).2) := by
  induction rules generalizing c with
  | nil => rfl
  | cons rule rules ih =>
    by_cases hs : (rule.skips r ctx c).1 = true
    · rw [stops_cons_of_skipped hs] at h
      rw [List.cons_append, evaluateRules_cons_of_skipped hs, evaluateRules_cons_of_skipped hs, ih h]
    · rw [Bool.not_eq_true] at hs
      by_cases hc : (rule.check r ctx (rule.skips r ctx c).2).1.claims = true
      · exact absurd (stops_cons_of_claims hs hc) h
      · rw [Bool.not_eq_true] at hc
        rw [stops_cons_of_passed hs hc] at h
        rw [List.cons_append, evaluateRules_cons_of_passed hs hc, evaluateRules_cons_of_passed hs hc, ih h]
        simp

/-! ## Without the rules that are skipped -/

/-- Over the catalogs with `P` it is settled which rules skip, and the rules lead to such catalogs. -/
def Decided (P : Catalog → Prop) (skip : Rule → Bool) (r : Reference) (ctx : Context) (rules : List Rule) :
    Prop :=
  ∀ rule ∈ rules, ∀ c, P c → rule.skips r ctx c = (skip rule, c) ∧ P (rule.check r ctx c).2

namespace Decided

variable {P : Catalog → Prop} {skip : Rule → Bool}

theorem of_pure (h : ∀ rule ∈ rules, rule.Pure) (r : Reference) (ctx : Context) (c : Catalog) :
    Decided (· = c) (fun rule => (rule.skips r ctx c).1) r ctx rules := by
  intro rule hm c' hc
  obtain ⟨hs, hk⟩ := h rule hm r ctx c'
  rw [hk]
  subst hc
  exact ⟨Prod.ext rfl hs, rfl⟩

theorem of_upfront (h : ∀ rule ∈ rules, rule.Upfront) (r : Reference) (ctx : Context) (c : Catalog) :
    Decided (fun _ => True) (fun rule => (rule.skips r ctx c).1) r ctx rules :=
  fun rule hm c' _ => ⟨h rule hm r ctx c c', trivial⟩

section
variable (h : Decided P skip r ctx (rule :: rules))
include h

theorem tail : Decided P skip r ctx rules := fun rule' hm => h rule' (List.mem_cons_of_mem rule hm)

variable (hc : P c)
include hc

theorem skips_eq : rule.skips r ctx c = (skip rule, c) := (h rule List.mem_cons_self c hc).1

theorem check : P (rule.check r ctx c).2 := (h rule List.mem_cons_self c hc).2

end

theorem evaluateRules_filter (h : Decided P skip r ctx rules) (hc : P c) :
    evaluateRules r ctx (rules.filter fun rule => !skip rule) c = evaluateRules r ctx rules c := by
  induction rules generalizing c with
  | nil => rfl
  | cons rule rules ih =>
    have hs := h.skips_eq hc
    by_cases hk : skip rule = true
    · simp [hk, hs, ih h.tail hc, evaluateRules]
    · simp [hk, hs, ih h.tail (h.check hc), evaluateRules]

theorem asks_filter (h : Decided P skip r ctx rules) (hc : P c) {rule' : Rule} {c' : Catalog} :
    Asks r ctx (rules.filter fun rule => !skip rule) c rule' c' ↔ Asks r ctx rules c rule' c' := by
  induction rules generalizing c with
  | nil => rfl
  | cons rule rules ih =>
    have hs := h.skips_eq hc
    by_cases hk : skip rule = true
    · simp [hk, hs, ih h.tail hc, asks_cons]
    · simp [hk, hs, ih h.tail (h.check hc), asks_cons]

theorem filtered (h : Decided P skip r ctx rules) (hc : P c) :
    evaluateRules r ctx (rules.filter fun rule => !skip rule) c = evaluateRules r ctx rules c ∧
      (Stops r ctx (rules.filter fun rule => !skip rule) c ↔ Stops r ctx rules c) := by
  refine ⟨h.evaluateRules_filter hc, ?_⟩
  simp only [Stops, h.asks_filter hc]

end Decided

/-! ## What is reported -/

theorem mem_evaluateRules {d : Diagnostic} : d ∈ (evaluateRules r ctx rules c).1 ↔
    ∃ rule c', Asks r ctx rules c rule c' ∧ d ∈ diagnostics rule r (rule.check r ctx c').1 := by
  induction rules generalizing c with
  | nil =>
    constructor
    · intro h
      cases h
    · rintro ⟨_, _, h, -⟩
      cases h
  | cons rule rules ih =>
    by_cases hs : (rule.skips r ctx c).1 = true
    · rw [evaluateRules_cons_of_skipped hs, ih]
      simp [asks_cons, hs]
    · rw [Bool.not_eq_true] at hs
      by_cases hc : (rule.check r ctx (rule.skips r ctx c).2).1.claims = true
      · rw [evaluateRules_cons_of_claims hs hc]
        simp [asks_cons, hs, hc, and_assoc]
      · rw [Bool.not_eq_true] at hc
        rw [evaluateRules_cons_of_passed hs hc]
        simp [asks_cons, hs, hc, ih, or_and_right, exists_or, and_assoc]

/-- The rule that claims the reference has the last word. -/
theorem Asks.suffix {rule' : Rule} {c' : Catalog} (h : Asks r ctx rules c rule' c')
    (hcl : (rule'.check r ctx c').1.claims = true) :
    diagnostics rule' r (rule'.check r ctx c').1 <:+ (evaluateRules r ctx rules c).1 := by
  induction h with
  | here hs =>
    exact ⟨[], (congrArg Prod.fst (evaluateRules_cons_of_claims hs hcl)).symm⟩
  | skipped hs _ ih =>
    rw [evaluateRules_cons_of_skipped hs]
    exact ih hcl
  | passed hs hc _ ih =>
    rw [evaluateRules_cons_of_passed hs hc]
    exact (ih hcl).trans (List.suffix_append _ _)

theorem mem_diagnostics {d : Diagnostic} {v : Verdict} : d ∈ diagnostics rule r v ↔
    ∃ m, v.message? = some m ∧
      d = ⟨rule.code, m, some r.expression, some r.source, some rule.name, v.suggestions⟩ := by
  unfold diagnostics
  cases v.message? <;> simp

/-! ## Pure rules -/

theorem evaluateRules_snd_of_pure (h : ∀ rule ∈ rules, rule.Pure) :
    (evaluateRules r ctx rules c).2 = c := by
  induction rules with
  | nil => rfl
  | cons rule rules ih =>
    obtain ⟨hs, hk⟩ := h rule List.mem_cons_self r ctx c
    have hr : (evaluateRules r ctx rules c).2 = c := ih fun rule' hm => h rule' (List.mem_cons_of_mem _ hm)
    by_cases hs' : (rule.skips r ctx c).1 = true
    · rw [evaluateRules_cons_of_skipped hs', hs, hr]
    · by_cases hc : (rule.check r ctx c).1.claims = true <;> simp [evaluateRules, hs, hs', hc, hk, hr]

theorem stops_iff_of_pure (h : ∀ rule ∈ rules, rule.Pure) : Stops r ctx rules c ↔
    ∃ rule ∈ rules, (rule.skips r ctx c).1 = false ∧ (rule.check r ctx c).1.claims = true := by
  induction rules with
  | nil =>
    constructor
    · rintro ⟨_, _, h, -⟩
      cases h
    · rintro ⟨_, h, -⟩
      cases h
  | cons rule rules ih =>
    obtain ⟨hs, hk⟩ := h rule List.mem_cons_self r ctx c
    have hr := ih fun rule' hm => h rule' (List.mem_cons_of_mem _ hm)
    by_cases hs' : (rule.skips r ctx c).1 = true
    · rw [stops_cons_of_skipped hs', hs, hr]
      simp [hs']
    · rw [Bool.not_eq_true] at hs'
      by_cases hc : (rule.check r ctx c).1.claims = true
      · exact iff_of_true (stops_cons_of_claims hs' (hs.symm ▸ hc)) ⟨rule, List.mem_cons_self, hs', hc⟩
      · rw [Bool.not_eq_true] at hc
        rw [stops_cons_of_passed hs' (hs.symm ▸ hc), hs, hk, hr]
        simp [hc]

end

/-! ## Chains -/

/-- A chain with the rules of another one added: where it stops the added rules say nothing, else what
they say follows. A rule that skips the reference says nothing and does not stop, so without such rules
the others are asked as before, unless to skip a rule asks the catalog and that changes. -/
theorem evaluate_foldl_add (k k' : Chain) (r : Reference) (ctx : Context) (c : Catalog) :
    (Stops r ctx k.rules c → (k'.rules.foldl add k).evaluate r ctx c = k.evaluate r ctx c) ∧
    (¬ Stops r ctx k.rules c → (k'.rules.foldl add k).evaluate r ctx c =
      ((k.evaluate r ctx c).1 ++ (k'.evaluate r ctx (k.evaluate r ctx c).2).1,
        (k'.evaluate r ctx (k.evaluate r ctx c).2).2)) ∧
    ((∀ rule ∈ k.rules, rule.Pure) → (k.evaluate r ctx c).2 = c ∧
      (Stops r ctx k.rules c ↔
        ∃ rule ∈ k.rules, (rule.skips r ctx c).1 = false ∧ (rule.check r ctx c).1.claims = true)) ∧
    ((∀ rule ∈ k.rules, rule.Pure) ∨ (∀ rule ∈ k.rules, rule.Upfront) →
      let asked := k.rules.filter fun rule => !(rule.skips r ctx c).1
      (Chain.mk asked).evaluate r ctx c = k.evaluate r ctx c ∧
        (Stops r ctx asked c ↔ Stops r ctx k.rules c)) ∧
    (∀ rule c', Asks r ctx k.rules c rule c' → (rule.check r ctx c').1.claims = true →
      diagnostics rule r (rule.check r ctx c').1 <:+ (k.evaluate r ctx c).1) ∧
    ∀ d, d ∈ (k.evaluate r ctx c).1 ↔ ∃ rule c' m, Asks r ctx k.rules c rule c' ∧
      (rule.check r ctx c').1.message? = some m ∧
      d = ⟨rule.code, m, some r.expression, some r.source, some rule.name,
        (rule.check r ctx c').1.suggestions⟩ := by
  have hrow : (k'.rules.foldl add k).evaluate r ctx c = evaluateRules r ctx (k.rules ++ k'.rules) c := by
    rw [evaluate, rules_foldl_add]
  refine ⟨?_, ?_, ?_, ?_, fun rule c' h hcl => h.suffix hcl, ?_⟩
  · intro h
    rw [hrow, evaluateRules_append_of_stops h]
    rfl
  · intro h
    rw [hrow, evaluateRules_append_of_not_stops h]
    rfl
  · intro h
    exact ⟨evaluateRules_snd_of_pure h, stops_iff_of_pure h⟩
  · rintro (h | h)
    · exact (Decided.of_pure h r ctx c).filtered rfl
    · exact (Decided.of_upfront h r ctx c).filtered trivial
  · intro d
    rw [evaluate, mem_evaluateRules]
    simp only [mem_diagnostics, exists_and_left]

/-- The second rule claims the reference, so the one that is added is not asked. -/
theorem evaluate_foldl_add_claimed :
    let r : Reference := ⟨"x.y", .undefined, "undefined", "t:ref:1", false⟩
    let ctx : Context := ⟨⟨[]⟩, .empty, Globals.source .empty, false, 5⟩
    let c := Catalog.build .standard 0
    let late : Rule := ⟨"late", .custom "L", fun _ _ c => (true, c),
      fun _ _ c => ((Verdict.invalid "late").claiming, c)⟩
    let first : Rule := ⟨"first", .custom "F", fun _ _ c => (false, c),
      fun _ _ c => (.invalid "first", c)⟩
    let last : Rule := ⟨"last", .custom "S", fun _ _ c => (false, c),
      fun _ _ c => ((Verdict.invalid "last").claiming, c)⟩
    Stops r ctx [late, first, last] c ∧
    ((Chain.standard.rules.foldl add ⟨[late, first, last]⟩).evaluate r ctx c).1.map (·.message) =
      ["first", "last"] ∧
    ¬ Stops r ctx [late, first] c ∧
    ((Chain.standard.rules.foldl add ⟨[late, first]⟩).evaluate r ctx c).1.map (·.code.text) =
      ["F", "E001"] := by
  intro r ctx c late first last
  have hs : Stops r ctx [late, first, last] c :=
    ⟨last, c, .skipped rfl (.passed rfl rfl (.here rfl)), rfl⟩
  have hp : ∀ rule ∈ (Chain.mk [late, first]).rules, rule.Pure := by
    intro rule hm
    simp only [List.mem_cons, List.not_mem_nil, or_false] at hm
    rcases hm with rfl | rfl <;> exact fun _ _ _ => ⟨rfl, rfl⟩
  have hn : ¬ Stops r ctx [late, first] c := by
    rw [((evaluate_foldl_add ⟨[late, first]⟩ .empty r ctx c).2.2.1 hp).2]
    simp [late, first, Verdict.invalid]
  refine ⟨hs, ?_, hn, ?_⟩
  · rw [(evaluate_foldl_add ⟨[late, first, last]⟩ .standard r ctx c).1 hs]
    rfl
  · rw [(evaluate_foldl_add ⟨[late, first]⟩ .standard r ctx c).2.1 hn]
    rfl

end Chain

end Stencil
