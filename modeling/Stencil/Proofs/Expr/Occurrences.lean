import Stencil.Proofs.Expr.Precedence
import Stencil.Proofs.Expr.Dispatch

/-!
# Where variables occur

The variables of a text are pieces of it, from left to right and apart from each other. Each of them is
a whole operand: outside quoted texts, and between brackets, operators or the ends of the text if white
space is left aside. A part of a text that is cut out, taken out of its brackets or trimmed has the same
ends on both sides, so what occurs in the part occurs in the text.
-/

namespace Stencil

/-! ## Ends -/

/-- Apart from white space the text is empty, or starts with a bracket or a character of an operator. -/
def Bounds (t : List Char) : Prop :=
  ∀ c, t.find? (fun c => !Text.isBlank c) = some c →
    c = '(' ∨ c = ')' ∨ ∃ op : Operator, c ∈ op.chars

theorem Bounds.append {s t : List Char} (hs : Bounds s) (ht : Bounds t) : Bounds (s ++ t) := by
  intro c hc
  rw [List.find?_append, Option.or_eq_some_iff] at hc
  rcases hc with hc | ⟨-, hc⟩
  · exact hs c hc
  · exact ht c hc

theorem bounds_of_blank {u : List Char} (hu : u.all Text.isBlank = true) : Bounds u := by
  intro c hc
  have hb := List.all_eq_true.1 hu c (List.mem_of_find?_eq_some hc)
  have hn := List.find?_some hc
  simp [hb] at hn

theorem bounds_cons {c : Char} (hb : Text.isBlank c = false)
    (hc : c = '(' ∨ c = ')' ∨ ∃ op : Operator, c ∈ op.chars) (t : List Char) : Bounds (c :: t) := by
  intro d hd
  rw [List.find?_cons_of_pos (by simp [hb])] at hd
  cases hd
  exact hc

/-- A symbol, read in either direction, is an end. -/
theorem bounds_of_mem_chars {op : Operator} {s : List Char} (hs : ∀ c ∈ s, c ∈ op.chars) (hne : s ≠ [])
    (t : List Char) : Bounds (s ++ t) := by
  obtain ⟨c, r, rfl⟩ := List.exists_cons_of_ne_nil hne
  have hc := hs c List.mem_cons_self
  exact bounds_cons (not_blank_of_mem_chars hc) (.inr (.inr ⟨op, hc⟩)) _

/-! ## Quotes -/

/-- No quote is open behind the text. -/
def Unquoted (t : List Char) : Prop := t.foldl quoteStep none = none

theorem Unquoted.append {s t : List Char} (hs : Unquoted s) (ht : Unquoted t) : Unquoted (s ++ t) := by
  unfold Unquoted at hs ⊢
  rw [List.foldl_append, hs]
  exact ht

theorem Balanced.unquoted {t : List Char} (h : Balanced t) : Unquoted t := foldl_quoteStep h

/-! ## Occurrences -/

structure Occurrence where
  before : List Char
  name : List Char
  after : List Char

namespace Occurrence

def text (o : Occurrence) : List Char := o.before ++ (o.name ++ o.after)

def Precedes (o o' : Occurrence) : Prop := o.before.length + o.name.length ≤ o'.before.length

/-- Nothing but white space stands between the occurrence and brackets, characters of operators or the
ends of the text, and it is in no quoted text. Where brackets and quotes balance, they do so in it. -/
structure Free (o : Occurrence) : Prop where
  closed : Balanced o.text → Balanced o.name
  unquoted : Unquoted o.before
  left : Bounds o.before.reverse
  right : Bounds o.after

/-- A variable stands there on its own. -/
structure Alone (o : Occurrence) : Prop where
  isName : isIdentifier o.name = true
  notTrue : ¬ IsWord "true" o.name
  notFalse : ¬ IsWord "false" o.name
  unquoted : Unquoted o.before
  left : Bounds o.before.reverse
  right : Bounds o.after

def within (p q : List Char) (o : Occurrence) : Occurrence := ⟨p ++ o.before, o.name, o.after ++ q⟩

variable {o o' : Occurrence}

theorem text_within (p q : List Char) (o : Occurrence) : (o.within p q).text = p ++ (o.text ++ q) := by
  simp [within, text]

theorem Precedes.within (h : o.Precedes o') (p q : List Char) :
    (o.within p q).Precedes (o'.within p q) := by
  unfold Precedes at h ⊢
  simp only [Occurrence.within, List.length_append]
  omega

theorem Free.within (h : o.Free) {p q : List Char} (hb : Balanced (p ++ (o.text ++ q)) → Balanced o.text)
    (hp : Unquoted p) (hl : Bounds p.reverse) (hr : Bounds q) : (o.within p q).Free where
  closed := by
    intro ht
    rw [text_within] at ht
    exact h.closed (hb ht)
  unquoted := hp.append h.unquoted
  left := by
    simp only [Occurrence.within, List.reverse_append]
    exact h.left.append hl
  right := h.right.append hr

theorem precedes_within (op : Operator) {s t : List Char} (h : o.text = s) :
    (o.within [] (op.chars ++ t)).Precedes (o'.within (s ++ op.chars) []) := by
  have hlen := congrArg List.length h
  simp only [text, List.length_append] at hlen
  simp only [Precedes, within, List.length_append, List.nil_append]
  omega

end Occurrence

/-! ## What is taken from operands -/

section
variable {α : Type} (P : List Char → α → Prop)

/-- All of these are taken from operands of the text, from left to right and apart from each other. -/
def Drawn (t : List Char) (xs : List α) : Prop :=
  ∃ os : List (Occurrence × α), os.map Prod.snd = xs ∧ os.Pairwise (fun a b => a.1.Precedes b.1) ∧
    ∀ a ∈ os, a.1.text = t ∧ a.1.Free ∧ P a.1.name a.2

variable {P} {s t : List Char} {xs ys : List α}

namespace Drawn

theorem nil (t : List Char) : Drawn P t [] := ⟨[], rfl, .nil, fun _ h => by cases h⟩

theorem whole {x : α} (h : P t x) : Drawn P t [x] := by
  refine ⟨[(⟨[], t, []⟩, x)], rfl, List.pairwise_singleton _ _, ?_⟩
  intro a ha
  rw [List.mem_singleton.1 ha]
  have ht : Occurrence.text ⟨[], t, []⟩ = t := List.append_nil t
  refine ⟨ht, ⟨?_, rfl, bounds_of_blank rfl, bounds_of_blank rfl⟩, h⟩
  intro hb
  rwa [ht] at hb

theorem within (h : Drawn P t xs) {p q : List Char} (hb : Balanced (p ++ (t ++ q)) → Balanced t)
    (hp : Unquoted p) (hl : Bounds p.reverse) (hr : Bounds q) : Drawn P (p ++ (t ++ q)) xs := by
  obtain ⟨os, rfl, hpw, ho⟩ := h
  refine ⟨os.map fun a => (a.1.within p q, a.2), by simp, ?_, ?_⟩
  · rw [List.pairwise_map]
    exact hpw.imp fun h => h.within p q
  · intro a hm
    obtain ⟨b, hb, rfl⟩ := List.mem_map.1 hm
    obtain ⟨rfl, hf, hP⟩ := ho b hb
    exact ⟨b.1.text_within p q, hf.within hb hp hl hr, hP⟩

theorem of_trim (h : Drawn P (Text.trim t) xs) : Drawn P t xs := by
  obtain ⟨u, v, hu, hv, e⟩ := Text.exists_trim t
  have hl : Bounds u.reverse := by
    apply bounds_of_blank
    rwa [List.all_reverse]
  have hb : Balanced (u ++ (Text.trim t ++ v)) → Balanced (Text.trim t) := by
    rw [← e, balanced_trim]
    exact id
  rw [e]
  exact h.within hb (balanced_of_blank hu).unquoted hl (bounds_of_blank hv)

theorem bracketed (h : Drawn P t xs) (hb : Balanced t) : Drawn P (bracketed t) xs := by
  have hl : Bounds ['('].reverse := bounds_cons (by decide) (.inl rfl) []
  have hr : Bounds [')'] := bounds_cons (by decide) (.inr (.inl rfl)) []
  exact h.within (p := ['(']) (fun _ => hb) rfl hl hr

theorem binary (h : Drawn P s xs) (h' : Drawn P t ys) (hs : Balanced s) (ht : Balanced t)
    (op : Operator) : Drawn P (s ++ (op.chars ++ t)) (xs ++ ys) := by
  have hne : op.chars ≠ [] := op.chars_ne_nil
  have hr : Bounds (op.chars ++ t) := bounds_of_mem_chars (fun _ hc => hc) hne t
  have hl : Bounds (s ++ op.chars).reverse := by
    have hrev : ∀ c ∈ op.chars.reverse, c ∈ op.chars := fun c hc => List.mem_reverse.1 hc
    rw [List.reverse_append]
    apply bounds_of_mem_chars hrev
    simpa using hne
  have hq : Unquoted (s ++ op.chars) := (hs.append (balanced_symbol op)).unquoted
  obtain ⟨os, rfl, hpw, ho⟩ := h
  obtain ⟨os', rfl, hpw', ho'⟩ := h'
  refine ⟨os.map (fun a => (a.1.within [] (op.chars ++ t), a.2)) ++
    os'.map (fun a => (a.1.within (s ++ op.chars) [], a.2)), ?_, ?_, ?_⟩
  · rw [List.map_append, List.map_map, List.map_map]
    rfl
  · rw [List.pairwise_append, List.pairwise_map, List.pairwise_map]
    refine ⟨hpw.imp fun h => h.within _ _, hpw'.imp fun h => h.within _ _, ?_⟩
    intro a hm b hm'
    obtain ⟨a', ha, rfl⟩ := List.mem_map.1 hm
    obtain ⟨b', -, rfl⟩ := List.mem_map.1 hm'
    exact Occurrence.precedes_within op (ho a' ha).1
  · intro a hm
    rcases List.mem_append.1 hm with hm | hm
    · obtain ⟨b, hb, rfl⟩ := List.mem_map.1 hm
      obtain ⟨rfl, hf, hP⟩ := ho b hb
      exact ⟨b.1.text_within _ _, hf.within (fun _ => hs) rfl (bounds_of_blank rfl) hr, hP⟩
    · obtain ⟨b, hb, rfl⟩ := List.mem_map.1 hm
      obtain ⟨rfl, hf, hP⟩ := ho' b hb
      refine ⟨?_, hf.within (fun _ => ht) hq hl (bounds_of_blank rfl), hP⟩
      rw [Occurrence.text_within]
      simp

end Drawn

/-! ## Reading -/

/-- What a tree gives is what its leaves give, and only what is read from a token gives anything. -/
structure Gathers (P : List Char → α → Prop) (f : Expr → List α) : Prop where
  binary : ∀ l op r, f (.binary l op r) = f l ++ f r
  raw : ∀ c, f (.raw c) = []
  null : f (.literal .null) = []
  token : ∀ {t e}, Expr.ofToken t = .ok e → Drawn P t (f e)

variable {f : Expr → List α} (hf : Gathers P f)

section
variable {rd : List Char → Except Fault Expr}
include hf

theorem drawn_foldlM {a : List (Operator × List Char)} (ha : ∀ p ∈ a, Balanced p.2)
    (hrd : ∀ p ∈ a, ∀ r, rd p.2 = .ok r → Drawn P p.2 (f r)) {t : List Char} (ht : Balanced t)
    {l e : Expr} (hl : Drawn P t (f l)) (h : a.foldlM (Cut.join1 rd) l = .ok e) :
    Drawn P (t ++ a.flatMap fun p => p.1.chars ++ p.2) (f e) := by
  induction a generalizing t l with
  | nil =>
    cases h
    simpa using hl
  | cons p a ih =>
    have hb := ha p List.mem_cons_self
    have hp := hrd p List.mem_cons_self
    rw [List.foldlM_cons] at h
    cases hr : rd p.2 with
    | error f =>
      rw [Cut.join1, hr] at h
      cases h
    | ok r =>
      rw [Cut.join1, hr] at h
      have hq : Balanced (t ++ (p.1.chars ++ p.2)) := ht.append ((balanced_symbol p.1).append hb)
      have hl' : Drawn P (t ++ (p.1.chars ++ p.2)) (f (.binary l p.1 r)) := by
        rw [hf.binary]
        exact hl.binary (hp r hr) ht hb p.1
      rw [List.flatMap_cons, ← List.append_assoc]
      apply ih _ _ hq hl' h
      · intro p' hm
        exact ha p' (List.mem_cons_of_mem _ hm)
      · intro p' hm
        exact hrd p' (List.mem_cons_of_mem _ hm)

theorem Cut.drawn_read {k : Cut} (hb : ∀ x ∈ k.pieces, Balanced x)
    (hrd : ∀ x ∈ k.pieces, ∀ r, rd x = .ok r → Drawn P x (f r)) {e : Expr}
    (h : k.read rd = .ok e) : Drawn P k.join (f e) := by
  obtain ⟨t, a⟩ := k
  cases ht : rd t with
  | error f =>
    rw [read, readWith, ht] at h
    cases h
  | ok l =>
    rw [read, readWith, ht] at h
    have hl := hrd t List.mem_cons_self l ht
    apply drawn_foldlM hf _ _ (hb t List.mem_cons_self) hl h
    · intro p hp
      exact hb p.2 (List.mem_cons_of_mem _ (List.mem_map_of_mem hp))
    · intro p hp
      exact hrd p.2 (List.mem_cons_of_mem _ (List.mem_map_of_mem hp))

end

section
variable {inner : List Char → Except Fault Expr}
  (hin : ∀ t e, inner t = .ok e → Balanced t ∧ Drawn P t (f e))
include hf hin

theorem drawn_ofOperand {t : List Char} {e : Expr} (h : Expr.ofOperand inner t = .ok e) :
    Drawn P t (f e) := by
  by_cases ht : t = []
  · subst ht
    cases h
    rw [hf.null]
    exact .nil []
  rw [ofOperand_of_ne_nil ht] at h
  cases hb : enclosed t with
  | none =>
    rw [hb] at h
    exact hf.token h
  | some body =>
    simp only [hb] at h
    rw [eq_of_enclosed hb]
    cases hr : inner body with
    | error f =>
      rw [hr] at h
      cases h
      rw [hf.raw]
      exact .nil _
    | ok e' =>
      rw [hr] at h
      cases h
      have hb := hin body _ hr
      exact hb.2.bracketed hb.1

theorem drawn_climb {ls : List Level} {t : List Char} {e : Expr}
    (h : Expr.climb inner ls t = .ok e) : Drawn P t (f e) := by
  induction ls generalizing t e with
  | nil => exact (drawn_ofOperand hf hin h).of_trim
  | cons ops ls ih =>
    by_cases hb : Balanced t
    · rw [Expr.climb_of_balanced hb] at h
      have hj : (cut ops (marked (Text.trim t))).join = Text.trim t := join_cut (balanced_trim.2 hb)
      apply Drawn.of_trim
      rw [← hj]
      apply Cut.drawn_read hf _ _ h
      · intro x hx
        exact Expr.balanced_of_piece hb hx
      · intro x _ r hr
        exact ih hr
    · rw [Expr.climb_of_unbalanced hb] at h
      cases h

end

section
include hf

theorem drawn_ofNested {n : Nat} {t : List Char} {e : Expr} (h : Expr.ofNested n t = .ok e) :
    Drawn P t (f e) := by
  induction n generalizing t e with
  | zero =>
    apply drawn_climb hf _ h
    intro t e h
    cases h
  | succ n ih => exact drawn_climb hf (fun _ _ h => ⟨Expr.balanced_of_ok h, ih h⟩) h

theorem drawn_orRaw {text : String} {r : Except Fault Expr}
    (h : ∀ e, r = .ok e → Drawn P text.toList (f e)) : Drawn P text.toList (f (Expr.orRaw text r)) := by
  cases r with
  | error _ =>
    rw [Expr.orRaw, hf.raw]
    exact .nil _
  | ok e => exact h e rfl

theorem drawn_ofText (text : String) : Drawn P text.toList (f (Expr.ofText text)) := by
  unfold Expr.ofText
  split
  · rw [hf.raw]
    exact .nil _
  · apply drawn_orRaw hf
    intro e h
    exact drawn_ofNested hf h

theorem drawn_ofWord (text : String) : Drawn P text.toList (f (Expr.ofWord text)) := by
  unfold Expr.ofWord
  split
  · rw [hf.raw]
    exact .nil _
  · apply drawn_orRaw hf
    intro e h
    apply Drawn.of_trim
    apply drawn_ofOperand hf _ h
    intro t e h
    exact ⟨Expr.balanced_of_ok h, drawn_ofNested hf h⟩

/-- Whatever reader a text is given to, what its tree gives is taken from operands of the text. -/
theorem ReaderKind.drawn_read (kind : ReaderKind) (text : String) :
    Drawn P text.toList (f (kind.reader.read text)) := by
  have hraw : Drawn P text.toList (f (.raw text)) := by
    rw [hf.raw]
    exact .nil _
  cases kind with
  | standard =>
    show Drawn P text.toList (f (Reader.standard.read text))
    rw [Reader.standard_read]
    by_cases ho : Reader.hasOperator text = true
    · rw [if_pos ho]
      exact drawn_ofText hf text
    by_cases hs : Reader.simple.supports text = true
    · rw [if_neg ho, if_pos hs]
      exact drawn_ofWord hf text
    · rw [if_neg ho, if_neg hs]
      exact hraw
  | binary => exact drawn_ofText hf text
  | conditional => exact drawn_ofText hf text
  | simple => exact drawn_ofWord hf text
  | verbatim => exact hraw

end

end

/-! ## Variables -/

theorem not_isWord_of_truth? {t : List Char} (h : Literal.truth? t = none) :
    ¬ IsWord "true" t ∧ ¬ IsWord "false" t := by
  constructor
  · intro ht
    have : Literal.truth? t = some true := if_pos ht
    rw [h] at this
    cases this
  · intro hf
    have ht : ¬ t.map Char.toLower = "true".toList := by
      rw [show t.map Char.toLower = "false".toList from hf]
      decide
    have : Literal.truth? t = some false := by
      simp only [Literal.truth?, if_neg ht]
      exact if_pos hf
    rw [h] at this
    cases this

theorem not_isWord_of_ofToken {t : List Char} {n : String} (h : Expr.ofToken t = .ok (.identifier n)) :
    ¬ IsWord "true" t ∧ ¬ IsWord "false" t := by
  apply not_isWord_of_truth?
  unfold Expr.ofToken at h
  split at h
  · rename_i l _
    cases l <;> cases h
  split at h
  · cases h
  split at h
  · cases h
  · assumption

/-- The operand is the variable of this name. -/
def Names (t : List Char) (name : String) : Prop :=
  name = String.ofList t ∧ isIdentifier t = true ∧ ¬ IsWord "true" t ∧ ¬ IsWord "false" t

theorem gathers_identifiers : Gathers Names Expr.identifiers where
  binary _ _ _ := rfl
  raw _ := rfl
  null := rfl
  token := by
    intro t e h
    rcases Expr.ofToken_cases h with ⟨l, rfl⟩ | ⟨hi, rfl⟩ | rfl
    · exact .nil t
    · exact .whole ⟨rfl, hi, not_isWord_of_ofToken h⟩
    · exact .nil t

/-- Whatever reader a text is given to, the variables found are names that occur in it from left to
right and apart from each other, each outside quoted texts and, white space aside, between brackets,
characters of operators or the ends of the text. -/
theorem ReaderKind.variables_occur (kind : ReaderKind) (text : String) :
    ∃ os : List Occurrence,
      os.map (fun o => String.ofList o.name) = (kind.reader.read text).identifiers ∧
      os.Pairwise Occurrence.Precedes ∧ ∀ o ∈ os, o.text = text.toList ∧ o.Alone := by
  obtain ⟨os, hnames, hpw, ho⟩ := kind.drawn_read gathers_identifiers text
  refine ⟨os.map Prod.fst, ?_, ?_, ?_⟩
  · rw [← hnames, List.map_map]
    apply List.map_congr_left
    intro a ha
    exact (ho a ha).2.2.1.symm
  · rw [List.pairwise_map]
    exact hpw
  · intro o hm
    obtain ⟨a, ha, rfl⟩ := List.mem_map.1 hm
    obtain ⟨ht, hf, -, hi, htr, hfa⟩ := ho a ha
    exact ⟨ht, hi, htr, hfa, hf.unquoted, hf.left, hf.right⟩

end Stencil
