import Stencil.Session.Basic

/-!
# What each reference contributes

A report is the concatenation of what the rules say about each reference. Of the standard rules none
claims a reference, so each contributes what the rule on existence says of it and then what the rule
on fields says; only the latter asks the catalog.
-/

namespace Stencil

namespace Chain

/-- Each reference with what the rules say about it, in their order. -/
def contributions (k : Chain) (ctx : Context) :
    List Reference → Catalog → List (Reference × List Diagnostic)
  | [], _ => []
  | r :: rs, c => (r, (k.evaluate r ctx c).1) :: contributions k ctx rs (k.evaluate r ctx c).2

variable {k : Chain} {ctx : Context}

theorem evaluateAll_fst (rs : List Reference) (c : Catalog) :
    (k.evaluateAll ctx rs c).1 = (k.contributions ctx rs c).flatMap (·.2) := by
  induction rs generalizing c with
  | nil => rfl
  | cons r rs ih =>
    rw [contributions, List.flatMap_cons, ← ih]
    rfl

theorem map_fst_contributions (rs : List Reference) (c : Catalog) :
    (k.contributions ctx rs c).map (·.1) = rs := by
  induction rs generalizing c with
  | nil => rfl
  | cons r rs ih => rw [contributions, List.map_cons, ih]

theorem exists_of_mem_contributions {P : Catalog → Prop}
    (hP : ∀ r c, P c → P (k.evaluate r ctx c).2) {rs : List Reference} {c : Catalog} (hc : P c)
    {r : Reference} {ds : List Diagnostic} (h : (r, ds) ∈ k.contributions ctx rs c) :
    r ∈ rs ∧ ∃ c', P c' ∧ ds = (k.evaluate r ctx c').1 := by
  induction rs generalizing c with
  | nil => cases h
  | cons r' rs ih =>
    rw [contributions, List.mem_cons] at h
    rcases h with h | h
    · cases h
      exact ⟨List.mem_cons_self, c, hc, rfl⟩
    · obtain ⟨hr, hd⟩ := ih (hP r' c hc) h
      exact ⟨List.mem_cons_of_mem _ hr, hd⟩

theorem evaluateAll_snd {P : Catalog → Prop} (hP : ∀ r c, P c → P (k.evaluate r ctx c).2)
    {c : Catalog} (hc : P c) (rs : List Reference) : P (k.evaluateAll ctx rs c).2 := by
  induction rs generalizing c with
  | nil => exact hc
  | cons r rs ih => exact ih (hP r c hc)

/-! ## The standard rules -/

/-- What one rule says if it does not skip. -/
def said (rule : Rule) (r : Reference) (ctx : Context) (c : Catalog) : List Diagnostic × Catalog :=
  let (skip, c) := rule.skips r ctx c
  if skip then ([], c)
  else (diagnostics rule r (rule.check r ctx c).1, (rule.check r ctx c).2)

theorem said_eq {rule : Rule} {r : Reference} {c : Catalog} (h : (rule.skips r ctx c).2 = c) :
    said rule r ctx c = if (rule.skips r ctx c).1 then ([], c)
      else (diagnostics rule r (rule.check r ctx c).1, (rule.check r ctx c).2) := by
  simp only [said, h]

theorem evaluateRules_cons {rule : Rule} (r : Reference) (rules : List Rule) (c : Catalog)
    (h : (rule.check r ctx (rule.skips r ctx c).2).1.claims = false) :
    evaluateRules r ctx (rule :: rules) c =
      ((said rule r ctx c).1 ++ (evaluateRules r ctx rules (said rule r ctx c).2).1,
        (evaluateRules r ctx rules (said rule r ctx c).2).2) := by
  simp only [evaluateRules, said]
  split
  · rfl
  · simp only [h, Bool.false_eq_true, if_false]

theorem claims_globalExistence (r : Reference) (c : Catalog) :
    (Rule.globalExistence.check r ctx c).1.claims = false := by
  simp only [Rule.globalExistence]
  split <;> rfl

theorem claims_scopeLegitimacy (r : Reference) (c : Catalog) :
    (Rule.scopeLegitimacy.check r ctx c).1.claims = false := by
  simp only [Rule.scopeLegitimacy]
  split <;> rfl

theorem claims_field (r : Reference) (c : Catalog) :
    (Rule.field.check r ctx c).1.claims = false := by
  simp only [Rule.field]
  split
  · rfl
  · split <;> rfl

theorem said_scopeLegitimacy (r : Reference) (c : Catalog) :
    said Rule.scopeLegitimacy r ctx c = ([], c) := by
  rw [said_eq rfl]
  split
  · rfl
  · simp only [Rule.scopeLegitimacy]
    split <;> rfl

theorem said_globalExistence_snd (r : Reference) (c : Catalog) :
    (said Rule.globalExistence r ctx c).2 = c := by
  rw [said_eq rfl]
  split <;> rfl

theorem evaluate_standard (r : Reference) (ctx : Context) (c : Catalog) :
    standard.evaluate r ctx c =
      ((said Rule.globalExistence r ctx c).1 ++ (said Rule.field r ctx c).1,
        (said Rule.field r ctx c).2) := by
  rw [evaluate, standard, evaluateRules_cons r _ c (claims_globalExistence r c),
    said_globalExistence_snd, evaluateRules_cons r _ c (claims_scopeLegitimacy r c),
    said_scopeLegitimacy, evaluateRules_cons r _ c (claims_field r c), evaluateRules,
    List.nil_append, List.append_nil]

/-! ## Codes -/

theorem length_said (rule : Rule) (r : Reference) (c : Catalog) :
    (said rule r ctx c).1.length ≤ 1 := by
  unfold said diagnostics
  obtain ⟨skip, c⟩ := rule.skips r ctx c
  cases skip with
  | true => exact Nat.zero_le 1
  | false => cases hm : (rule.check r ctx c).1.message? <;> simp [hm]

theorem mem_codes_said {rule : Rule} {r : Reference} {c : Catalog} (h : (rule.skips r ctx c).2 = c)
    {code : Code} : code ∈ (said rule r ctx c).1.map (·.code) ↔
      code = rule.code ∧ (rule.skips r ctx c).1 = false ∧
        (rule.check r ctx c).1.message?.isSome = true := by
  rw [said_eq h, diagnostics]
  cases (rule.skips r ctx c).1 with
  | true => simp
  | false => cases (rule.check r ctx c).1.message? <;> simp

/-- A variable is missing that is not settled, that no scope bound and that is no global. -/
def Missing (r : Reference) (ctx : Context) : Prop :=
  r.settled = false ∧ ctx.scopes.wasScopeBound r.root = false ∧
    ctx.globals.contains r.root = false ∧ ctx.scopes.isGlobal r.root = false

theorem mem_codes_globalExistence {r : Reference} {c : Catalog} {code : Code} :
    code ∈ (said Rule.globalExistence r ctx c).1.map (·.code) ↔
      code = .unknownVariable ∧ Missing r ctx := by
  have hs : (Rule.globalExistence.skips r ctx c).1 = false ↔
      r.settled = false ∧ ctx.scopes.wasScopeBound r.root = false := Bool.or_eq_false_iff
  have hm : (Rule.globalExistence.check r ctx c).1.message?.isSome = true ↔
      ctx.globals.contains r.root = false ∧ ctx.scopes.isGlobal r.root = false := by
    rw [← Bool.or_eq_false_iff]
    simp only [Rule.globalExistence]
    split <;> rename_i h
    · simp [h, Verdict.ok, Verdict.message?]
    · simp [h, Verdict.invalid, Verdict.message?]
  rw [mem_codes_said rfl, hs, hm, Missing, and_assoc]
  rfl

/-- The rule on fields looks at the path of a reference. -/
def ChecksPath (r : Reference) (ctx : Context) (path : String) : Prop :=
  Rule.checksKind r.kind ctx = true ∧ fieldsOf? r.expression = some path ∧
    Rule.isConcrete r.typeName = true

theorem skips_field_eq_false {r : Reference} {c : Catalog} :
    (Rule.field.skips r ctx c).1 = false ↔ ∃ path, ChecksPath r ctx path := by
  cases hf : fieldsOf? r.expression with
  | none => simp [Rule.field, Reference.hasFieldAccess, ChecksPath, hf]
  | some path => simp [Rule.field, Reference.hasFieldAccess, ChecksPath, hf]

theorem mem_codes_field {r : Reference} {c : Catalog} {code : Code} :
    code ∈ (said Rule.field r ctx c).1.map (·.code) ↔
      code = .unknownField ∧ ∃ path, ChecksPath r ctx path ∧
        (c.knowsField ctx.graph r.typeName path).1 = false := by
  have hm : ∀ path, ChecksPath r ctx path →
      ((Rule.field.check r ctx c).1.message?.isSome = true ↔
        (c.knowsField ctx.graph r.typeName path).1 = false) := by
    rintro path ⟨-, hf, -⟩
    simp only [Rule.field, hf]
    split <;> rename_i hk <;> rw [hk] <;> simp [Verdict.ok, Verdict.invalid, Verdict.message?,
      Verdict.withSuggestions]
  rw [mem_codes_said rfl, skips_field_eq_false, ← exists_and_right]
  exact and_congr_right' (exists_congr fun path => and_congr_right (hm path))

theorem length_evaluate_standard {r : Reference} (c : Catalog)
    (h : Missing r ctx → Rule.checksKind r.kind ctx = false) :
    (standard.evaluate r ctx c).1.length ≤ 1 := by
  rw [evaluate_standard, List.length_append]
  by_cases hm : Missing r ctx
  · have hf : (said Rule.field r ctx c).1 = [] := by
      have hs : (Rule.field.skips r ctx c).1 = true := by simp [Rule.field, h hm]
      rw [said_eq rfl, if_pos hs]
    rw [hf]
    exact length_said _ r c
  · have he : (said Rule.globalExistence r ctx c).1 = [] := by
      rw [← List.map_eq_nil_iff (f := (·.code)), List.eq_nil_iff_forall_not_mem]
      exact fun code hc => hm (mem_codes_globalExistence.1 hc).2
    rw [he, List.length_nil, Nat.zero_add]
    exact length_said _ r c

theorem mem_codes_standard {r : Reference} {c : Catalog} {code : Code} :
    code ∈ (standard.evaluate r ctx c).1.map (·.code) ↔
      code = .unknownVariable ∧ Missing r ctx ∨
      code = .unknownField ∧ ∃ path, ChecksPath r ctx path ∧
        (c.knowsField ctx.graph r.typeName path).1 = false := by
  rw [evaluate_standard, List.map_append, List.mem_append, mem_codes_globalExistence,
    mem_codes_field]

end Chain

namespace Session

/-- Each reference with what is wrong with it. -/
def contributions (g : Graph) (s : Session) (c : Catalog) : List (Reference × List Diagnostic) :=
  s.chain.contributions (s.context g) s.references c

theorem report_eq (g : Graph) (s : Session) (c : Catalog) :
    (s.report g c).1.diagnostics = (s.contributions g c).flatMap (·.2) :=
  Chain.evaluateAll_fst s.references c

end Session

end Stencil
