import Stencil.Proofs.Path.Registering

/-!
# The order of paths

Two paths are compared by the first segment in which they differ, and a path stands before its
continuations. What stands between two continuations of a path continues it too, so among known paths
the continuations of any path stand side by side.
-/

namespace Stencil

/-! ## Lists of segments -/

section
variable {r s t u : List String}

theorem prefix_of_between (hs : r <+: s) (hu : r <+: u) (h : ¬ t < s) (h' : ¬ u < t) : r <+: t := by
  induction r generalizing s t u with
  | nil => exact List.nil_prefix
  | cons w r ih =>
    obtain ⟨s, rfl, hrs⟩ := List.cons_prefix_iff.1 hs
    obtain ⟨u, rfl, hru⟩ := List.cons_prefix_iff.1 hu
    cases t with
    | nil => exact absurd (List.nil_lt_cons w s) h
    | cons v t =>
      rw [List.cons_lt_cons_iff, not_or] at h h'
      have hv : w = v := String.le_antisymm (String.not_lt.1 h.1) (String.not_lt.1 h'.1)
      subst hv
      exact (List.prefix_cons_inj w).2 (ih hrs hru (fun hlt => h.2 ⟨rfl, hlt⟩) fun hlt => h'.2 ⟨rfl, hlt⟩)

/-- One list goes on where the other ends, or they go on with different words. -/
def Foregoes (s t : List String) : Prop :=
  (∃ w v, t = s ++ w :: v) ∨ ∃ r a s' b t', s = r ++ a :: s' ∧ t = r ++ b :: t' ∧ a < b

theorem lt_iff_foregoes : s < t ↔ Foregoes s t := by
  constructor
  · intro h
    induction s generalizing t with
    | nil =>
      cases t with
      | nil => exact absurd h (List.not_lt_nil [])
      | cons w t => exact .inl ⟨w, t, rfl⟩
    | cons a s ih =>
      cases t with
      | nil => exact absurd h (List.not_lt_nil _)
      | cons b t =>
        rcases List.cons_lt_cons_iff.1 h with hab | ⟨rfl, hst⟩
        · exact .inr ⟨[], a, s, b, t, rfl, rfl, hab⟩
        · rcases ih hst with ⟨w, v, rfl⟩ | ⟨r, c, s', d, t', rfl, rfl, hcd⟩
          · exact .inl ⟨w, v, rfl⟩
          · exact .inr ⟨a :: r, c, s', d, t', rfl, rfl, hcd⟩
  · have hcommon : ∀ {r s t : List String}, s < t → r ++ s < r ++ t := by
      intro r s t h
      induction r with
      | nil => exact h
      | cons a r ih => exact List.cons_lt_cons_iff.2 (.inr ⟨rfl, ih⟩)
    rintro (⟨w, v, rfl⟩ | ⟨r, a, s', b, t', rfl, rfl, hab⟩)
    · simpa using hcommon (r := s) (List.nil_lt_cons w v)
    · exact hcommon (List.cons_lt_cons_iff.2 (.inl hab))

end

/-! ## Paths -/

namespace Path

variable {p q : Path}

theorem cmp_eq_lt_iff : p.cmp q = .lt ↔ p < q := by
  unfold cmp
  by_cases h : p < q
  · simp [h]
  · by_cases he : p = q <;> simp [h, he, q.lt_irrefl]

theorem cmp_eq_gt_iff : p.cmp q = .gt ↔ q < p := by
  unfold cmp
  by_cases h : p < q
  · have hn : ¬ q < p := fun h' => p.lt_irrefl (Path.lt_trans h h')
    simp [h, hn]
  · by_cases he : p = q
    · simp [he, q.lt_irrefl]
    · simp [h, he, Path.lt_of_not_lt h he]

theorem isLE_cmp_iff : (p.cmp q).isLE = true ↔ ¬ q < p := by
  rw [← cmp_eq_gt_iff]
  cases p.cmp q <;> simp

theorem startsWith_iff : p.startsWith q = true ↔ q.segments <+: p.segments :=
  List.isPrefixOf_iff_prefix

instance : Std.TransCmp cmp where
  eq_swap {p q} := by
    cases h : q.cmp p with
    | lt => exact cmp_eq_gt_iff.2 (cmp_eq_lt_iff.1 h)
    | eq => exact cmp_eq_eq_iff.2 (cmp_eq_eq_iff.1 h).symm
    | gt => exact cmp_eq_lt_iff.2 (cmp_eq_gt_iff.1 h)
  isLE_trans {p q r} h h' := by
    rw [isLE_cmp_iff] at h h' ⊢
    intro hr
    by_cases hp : p = q
    · exact h' (hp ▸ hr)
    · exact h' (Path.lt_trans hr (Path.lt_of_not_lt h (Ne.symm hp)))

instance : Std.LawfulEqCmp cmp where
  compare_self := cmp_eq_eq_iff.2 rfl
  eq_of_compare := cmp_eq_eq_iff.1

theorem startsWith_of_between {a x b : Path} (ha : a.startsWith p = true) (hb : b.startsWith p = true)
    (h : (a.cmp x).isLE = true) (h' : (x.cmp b).isLE = true) : x.startsWith p = true := by
  rw [startsWith_iff] at ha hb ⊢
  exact prefix_of_between ha hb (isLE_cmp_iff.1 h) (isLE_cmp_iff.1 h')

end Path

/-! ## Known paths -/

section
variable {P : Path → Bool} (hP : ∀ p x q : Path, P p = true → P q = true → p < x → x < q → P x = true)
include hP

theorem filter_prefix_of_between {p : Path} (hp : P p = true) {l : List Path}
    (hl : (p :: l).Pairwise (· < ·)) : l.filter P <+: l := by
  induction l generalizing p with
  | nil => exact List.prefix_rfl
  | cons x l ih =>
    obtain ⟨hpl, hxl⟩ := List.pairwise_cons.1 hl
    by_cases hx : P x = true
    · rw [List.filter_cons_of_pos hx]
      exact (List.prefix_cons_inj x).2 (ih hx hxl)
    · -- Nothing behind `x` has the property, or `x` would stand between two that have it.
      have hnil : l.filter P = [] := by
        apply List.filter_eq_nil_iff.2
        intro q hq hPq
        exact hx (hP p x q hp hPq (hpl x List.mem_cons_self) ((List.pairwise_cons.1 hxl).1 q hq))
      rw [List.filter_cons_of_neg hx, hnil]
      exact List.nil_prefix

theorem filter_infix_of_between {l : List Path} (hl : l.Pairwise (· < ·)) : l.filter P <:+: l := by
  induction l with
  | nil => exact List.infix_rfl
  | cons x l ih =>
    by_cases hx : P x = true
    · rw [List.filter_cons_of_pos hx]
      exact ((List.prefix_cons_inj x).2 (filter_prefix_of_between hP hx hl)).isInfix
    · rw [List.filter_cons_of_neg hx]
      exact List.infix_cons (ih (List.pairwise_cons.1 hl).2)

end

/-- The comparison of paths is a total order that tells equal paths apart from all others, a path stands
before its continuations, and all continuations of a path stand side by side. -/
theorem Path.order_proper :
    (∀ p q : Path, p.cmp q = .eq ↔ p = q) ∧
    (∀ p q : Path, q.cmp p = (p.cmp q).swap) ∧
    (∀ p q r : Path, (p.cmp q).isLE = true → (q.cmp r).isLE = true → (p.cmp r).isLE = true) ∧
    (∀ p q : Path, p.cmp q = .lt ↔ Foregoes p.segments q.segments) ∧
    (∀ p q : Path, p.startsWith q = true ↔ ∃ ws, p.segments = q.segments ++ ws) ∧
    (∀ p q : Path, p.startsWith q = true → (q.cmp p).isLE = true) ∧
    (∀ p a x b : Path, a.startsWith p = true → b.startsWith p = true → (a.cmp x).isLE = true →
      (x.cmp b).isLE = true → x.startsWith p = true) ∧
    ∀ (k : KnownPaths) (p : Path), k.paths.filter (·.startsWith p) <:+: k.paths := by
  refine ⟨fun p q => cmp_eq_eq_iff, fun p q => Std.OrientedCmp.eq_swap, fun p q r => Std.TransCmp.isLE_trans,
    fun p q => cmp_eq_lt_iff.trans lt_iff_foregoes, fun p q => ?starts, fun p q h => ?before,
    fun p a x b ha hb h h' => startsWith_of_between ha hb h h', fun k p => ?together⟩
  case starts =>
    rw [startsWith_iff]
    exact exists_congr fun ws => eq_comm
  case before => exact isLE_cmp_iff.2 (List.not_lt.2 (List.IsPrefix.le (α := String) (startsWith_iff.1 h)))
  case together =>
    refine filter_infix_of_between (fun a x b ha hb h h' => ?_) k.sorted
    refine startsWith_of_between ha hb ?_ ?_
    · rw [cmp_eq_lt_iff.2 h]
      rfl
    · rw [cmp_eq_lt_iff.2 h']
      rfl

/-- The exclamation mark comes before the point, but `order!` stands behind the continuations of
`order`. -/
theorem Path.order_proper_orders :
    let k := KnownPaths.ofRegistrations [.all ["order!", "order.items[0]", "order", "order.id", "name"]]
    (ofText "order.id").startsWith (ofText "order") = true ∧
    ((ofText "order").cmp (ofText "order.id")).isLE = true ∧
    ((ofText "order.id").cmp (ofText "order.items")).isLE = true ∧
    ((ofText "order.items").cmp (ofText "order.items[0]")).isLE = true ∧
    (ofText "order.items").startsWith (ofText "order") = true ∧
    (ofText "order").cmp (ofText "order!") = .lt ∧
    k.paths.filter (·.startsWith (ofText "order")) <:+: k.paths := by
  intro k
  obtain ⟨-, -, -, hlt, -, hbefore, hbetween, htogether⟩ := order_proper
  have hid : (ofText "order.id").startsWith (ofText "order") = true := by decide
  have hzero : (ofText "order.items[0]").startsWith (ofText "order") = true := by decide
  have h : ((ofText "order.id").cmp (ofText "order.items")).isLE = true := by decide
  have h' : ((ofText "order.items").cmp (ofText "order.items[0]")).isLE = true := by decide
  exact ⟨hid, hbefore _ _ hid, h, h', hbetween _ _ _ _ hid hzero h h',
    (hlt _ _).2 (.inr ⟨[], "order", [], "order!", [], rfl, rfl, by decide⟩), htogether _ _⟩

end Stencil
