import Stencil.Proofs.Check.Composing
import Stencil.Proofs.Shape.Alike

/-!
# Discreet rules

What a rule finds may depend on the whole catalog, and it may leave another one. A rule that learns of the
catalog by requests only is discreet: it finds the same over catalogs that answer alike. Which requests it
makes decides what it leaves of a catalog; the standard rules go by names, and leave those. Over catalogs
that none of its rules tells apart, a chain finds the same.
-/

namespace Stencil

/-- Requests, of which each may depend on the replies so far, and what comes of them. -/
inductive Inquiry (α : Type)
  | found (a : α)
  | ask (r : Request) (next : Reply → Inquiry α)

/-- A request for what a name stands for. -/
def Request.ByName : Request → Prop
  | resolve _ | contains _ | knowsField _ _ | suggestions _ _ => True
  | shapeOf _ | register _ _ | clear => False

namespace Reply

def isYes : Reply → Bool
  | truth b => b
  | _ => false

def names : Reply → List String
  | fields names => names
  | _ => []

end Reply

namespace Inquiry

variable {α : Type}

def run (g : Graph) : Inquiry α → Catalog → α × Catalog
  | found a, c => (a, c)
  | ask r next, c => (next (c.serve g r).1).run g (c.serve g r).2

/-- All requests are of this kind. -/
inductive Within (A : Request → Prop) : Inquiry α → Prop
  | found (a : α) : Within A (.found a)
  | ask {r : Request} {next : Reply → Inquiry α} (hr : A r) (h : ∀ reply, Within A (next reply)) :
    Within A (.ask r next)

end Inquiry

/-- Over related catalogs the question has one answer, and it leaves related ones. -/
def Catalog.Blind {α : Type} (Q : Catalog → Catalog → Prop) (ask : Catalog → α × Catalog) : Prop :=
  ∀ c c', Q c c' → (ask c).1 = (ask c').1 ∧ Q (ask c).2 (ask c').2

namespace Rule

/-- Over related catalogs the rule skips and finds the same, and it leaves related ones. -/
def Respects (g : Graph) (Q : Catalog → Catalog → Prop) (rule : Rule) : Prop :=
  ∀ r ctx, ctx.graph = g → Catalog.Blind Q (rule.skips r ctx) ∧ Catalog.Blind Q (rule.check r ctx)

/-- The rule does not tell catalogs apart that answer alike. -/
def Discreet (g : Graph) (rule : Rule) : Prop := rule.Respects g (Catalog.Alike g)

/-- The rule leaves a catalog with this property if it gets one. -/
def Leaves (g : Graph) (P : Catalog → Prop) (rule : Rule) : Prop :=
  ∀ r ctx c, ctx.graph = g → P c → P (rule.skips r ctx c).2 ∧ P (rule.check r ctx c).2

/-- The rule learns of the catalog by requests of this kind only. -/
def Inquires (g : Graph) (A : Request → Prop) (rule : Rule) : Prop :=
  ∀ r ctx, ctx.graph = g →
    (∃ i : Inquiry Bool, i.Within A ∧ rule.skips r ctx = i.run g) ∧
      ∃ i : Inquiry Verdict, i.Within A ∧ rule.check r ctx = i.run g

end Rule

variable {g : Graph} {A : Request → Prop} {P : Catalog → Prop} {Q : Catalog → Catalog → Prop}
  {rule : Rule} {c c' : Catalog}

/-! ## Inquiries -/

namespace Inquiry

variable {α : Type} {i : Inquiry α}

theorem blind (i : Inquiry α) : Catalog.Blind (Catalog.Alike g) (i.run g) := by
  induction i with
  | found a => exact fun c c' h => ⟨rfl, h⟩
  | ask r next ih =>
    intro c c' h
    obtain ⟨hr, h'⟩ := h.serve r
    rw [run, run, ← hr]
    exact ih _ _ _ h'

theorem Within.mono {B : Request → Prop} (h : i.Within A) (hAB : ∀ r, A r → B r) : i.Within B := by
  induction h with
  | found a => exact .found a
  | ask hr _ ih => exact .ask (hAB _ hr) ih

theorem Within.leaves (hP : ∀ c r, A r → P c → P (c.serve g r).2) (h : i.Within A) (hc : P c) :
    P (i.run g c).2 := by
  induction h generalizing c with
  | found a => exact hc
  | ask hr _ ih => exact ih _ (hP _ _ hr hc)

end Inquiry

/-- A request by name changes nothing that other requests would tell. -/
theorem Catalog.Alike.byName (h : Alike g c c') {r : Request} (hr : r.ByName) :
    Alike g c (c'.serve g r).2 := by
  have hn : r.refused? = none := by
    cases r <;> first | rfl | cases hr
  have hd : (Directory.serve g c'.store.aliases r).2 = c'.store.aliases := by
    cases r <;> first | rfl | cases hr
  refine ⟨h.settled, h.settled'.serve r, ?_, ?_⟩
  · rw [(h.settled'.serve_eq (.inr hn)).2, hd, h.names]
  · rw [readOnly_serve, h.readOnly]

/-! ## One rule -/

namespace Rule

theorem respects_eq (g : Graph) (rule : Rule) : rule.Respects g (· = ·) := by
  refine fun r ctx _ => ⟨?_, ?_⟩ <;>
  · rintro c _ rfl
    exact ⟨rfl, rfl⟩

theorem Leaves.respects (h : rule.Leaves g P) : rule.Respects g fun c c' => c = c' ∧ P c := by
  refine fun r ctx hg => ⟨?_, ?_⟩ <;> rintro c _ ⟨rfl, hc⟩
  · exact ⟨rfl, rfl, (h r ctx c hg hc).1⟩
  · exact ⟨rfl, rfl, (h r ctx c hg hc).2⟩

theorem Inquires.mono {B : Request → Prop} (h : rule.Inquires g A) (hAB : ∀ r, A r → B r) :
    rule.Inquires g B := fun r ctx hg =>
  (h r ctx hg).imp (.imp fun _ => .imp_left (·.mono hAB)) (.imp fun _ => .imp_left (·.mono hAB))

theorem Inquires.discreet (h : rule.Inquires g A) : rule.Discreet g := by
  intro r ctx hg
  obtain ⟨⟨i, -, hs⟩, j, -, hv⟩ := h r ctx hg
  rw [hs, hv]
  exact ⟨i.blind, j.blind⟩

theorem Inquires.leaves (h : rule.Inquires g A) (hP : ∀ c r, A r → P c → P (c.serve g r).2) :
    rule.Leaves g P := by
  intro r ctx c hg hc
  obtain ⟨⟨i, hi, hs⟩, j, hj, hv⟩ := h r ctx hg
  rw [hs, hv]
  exact ⟨hi.leaves hP hc, hj.leaves hP hc⟩

/-- A rule that does not ask the catalog. -/
theorem inquires_of_blind {skip : Reference → Context → Bool} {verdict : Reference → Context → Verdict}
    (hs : ∀ r ctx c, rule.skips r ctx c = (skip r ctx, c))
    (hv : ∀ r ctx c, rule.check r ctx c = (verdict r ctx, c)) : rule.Inquires g A :=
  fun r ctx _ => ⟨⟨.found _, .found _, funext (hs r ctx)⟩, .found _, .found _, funext (hv r ctx)⟩

theorem inquires_field : field.Inquires g Request.ByName := by
  refine fun r ctx hg => ⟨⟨.found _, .found _, rfl⟩, ?_⟩
  cases hp : fieldsOf? r.expression with
  | none => exact ⟨.found .ok, .found _, by simp only [field, hp]; rfl⟩
  | some path =>
    let objection (suggestions : List String) : Verdict :=
      (Verdict.invalid (unknownFieldMessage path r suggestions)).withSuggestions suggestions
    let complaint : Inquiry Verdict := .ask (.suggestions r.typeName path) fun reply =>
      .found (objection (reply.names.take ctx.maxSuggestions))
    refine ⟨.ask (.knowsField r.typeName path) fun reply =>
      bif reply.isYes then .found .ok else complaint, .ask trivial fun reply => ?_, funext fun c => ?_⟩
    · cases reply.isYes with
      | true => exact .found _
      | false => exact .ask trivial fun _ => .found _
    · simp only [field, hp, hg, Inquiry.run, Catalog.serve]
      generalize c.knowsField g r.typeName path = answer
      obtain ⟨known, c'⟩ := answer
      cases known <;> rfl

end Rule

/-! ## Chains -/

namespace Chain

variable {ctx : Context} {k : Chain}

def Respects (g : Graph) (Q : Catalog → Catalog → Prop) (k : Chain) : Prop :=
  ∀ rule ∈ k.rules, rule.Respects g Q

def Discreet (g : Graph) (k : Chain) : Prop := ∀ rule ∈ k.rules, rule.Discreet g

def Leaves (g : Graph) (P : Catalog → Prop) (k : Chain) : Prop := ∀ rule ∈ k.rules, rule.Leaves g P

def Inquires (g : Graph) (A : Request → Prop) (k : Chain) : Prop := ∀ rule ∈ k.rules, rule.Inquires g A

theorem inquires_standard : standard.Inquires g Request.ByName := by
  intro rule h
  rcases List.mem_cons.1 h with rfl | h
  · exact Rule.inquires_of_blind (fun _ _ _ => rfl) fun _ _ _ => rfl
  rcases List.mem_cons.1 h with rfl | h
  · exact Rule.inquires_of_blind (fun _ _ _ => rfl) fun _ _ _ => rfl
  rcases List.mem_cons.1 h with rfl | h
  · exact Rule.inquires_field
  · cases h

theorem Respects.evaluate (h : k.Respects g Q) (hg : ctx.graph = g) (hq : Q c c') (r : Reference) :
    (k.evaluate r ctx c).1 = (k.evaluate r ctx c').1 ∧
      Q (k.evaluate r ctx c).2 (k.evaluate r ctx c').2 := by
  obtain ⟨rules⟩ := k
  unfold Chain.evaluate
  induction rules generalizing c c' with
  | nil => exact ⟨rfl, hq⟩
  | cons rule rules ih =>
    have hrules : Respects g Q ⟨rules⟩ := fun rule' hm => h rule' (List.mem_cons_of_mem _ hm)
    obtain ⟨hskip, hcheck⟩ := h rule List.mem_cons_self r ctx hg
    obtain ⟨hs, hq⟩ := hskip c c' hq
    by_cases hskips : (rule.skips r ctx c).1 = true
    · rw [evaluateRules_cons_of_skipped hskips, evaluateRules_cons_of_skipped (hs ▸ hskips)]
      exact ih hq hrules
    rw [Bool.not_eq_true] at hskips
    obtain ⟨hv, hq'⟩ := hcheck _ _ hq
    by_cases hcl : (rule.check r ctx (rule.skips r ctx c).2).1.claims = true
    · rw [evaluateRules_cons_of_claims hskips hcl, evaluateRules_cons_of_claims (hs ▸ hskips) (hv ▸ hcl), hv]
      exact ⟨rfl, hq'⟩
    · rw [Bool.not_eq_true] at hcl
      obtain ⟨hd, hq''⟩ := ih hq' hrules
      rw [evaluateRules_cons_of_passed hskips hcl, evaluateRules_cons_of_passed (hs ▸ hskips) (hv ▸ hcl), hv]
      exact ⟨congrArg (_ ++ ·) hd, hq''⟩

theorem Leaves.respects (h : k.Leaves g P) : k.Respects g fun c c' => c = c' ∧ P c :=
  fun rule hm => (h rule hm).respects

theorem Leaves.evaluate (h : k.Leaves g P) (hg : ctx.graph = g) (hc : P c) (r : Reference) :
    P (k.evaluate r ctx c).2 :=
  (h.respects.evaluate hg ⟨rfl, hc⟩ r).2.2

theorem Respects.evaluateAll (h : k.Respects g Q) (hg : ctx.graph = g) (hq : Q c c')
    (rs : List Reference) :
    (k.evaluateAll ctx rs c).1 = (k.evaluateAll ctx rs c').1 ∧
      Q (k.evaluateAll ctx rs c).2 (k.evaluateAll ctx rs c').2 := by
  induction rs generalizing c c' with
  | nil => exact ⟨rfl, hq⟩
  | cons r rs ih =>
    obtain ⟨hd, hq'⟩ := h.evaluate hg hq r
    obtain ⟨hds, hq''⟩ := ih hq'
    simp only [Chain.evaluateAll, hd]
    exact ⟨congrArg (_ ++ ·) hds, hq''⟩

end Chain

end Stencil
