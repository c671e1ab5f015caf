import Stencil.Proofs.Shape.Lapsing

/-!
# Building shapes

`Builds` builds the shapes of types in turn, each with those of its fields before the next, and is
held up only by the types that it met before and the shapes that are kept. There are finitely many
types to meet, so it comes to an end, and it leaves what asking for a type leaves. Where nothing is
kept it meets what is reached along fields, each type once.
-/

namespace Stencil

namespace Catalog

/-- From the types met so far and a catalog, the types in turn lead to those met then and to a
catalog. A type that was met or is kept is passed over; another one is met and discovered, and its
fields come before the rest. -/
inductive Builds (g : Graph) :
    List Descriptor → Catalog → List Descriptor → List Descriptor → Catalog → Prop
  | done (met : List Descriptor) (c : Catalog) : Builds g met c [] met c
  | pass {met met' rest : List Descriptor} {c c' : Catalog} {t : Descriptor}
    (ht : t ∈ met ∨ c.store.contains t = true) (h : Builds g met c rest met' c') :
    Builds g met c (t :: rest) met' c'
  | build {met below met' rest : List Descriptor} {c c₁ c' : Catalog} {t : Descriptor}
    (hm : t ∉ met) (hc : c.store.contains t = false)
    (hf : Builds g (t :: met) (c.add (g.shape t)) (g.fieldTypes t) below c₁)
    (h : Builds g below c₁ rest met' c') : Builds g met c (t :: rest) met' c'

namespace Builds

variable {g : Graph} {met met' ts : List Descriptor} {c c' : Catalog}

/-! ## What is met -/

theorem unique (h : Builds g met c ts met' c') {met₂ : List Descriptor} {c₂ : Catalog}
    (h₂ : Builds g met c ts met₂ c₂) : met₂ = met' ∧ c₂ = c' := by
  induction h generalizing met₂ c₂ with
  | done met c =>
    cases h₂
    exact ⟨rfl, rfl⟩
  | pass ht _ ih =>
    cases h₂ with
    | pass _ h₂ => exact ih h₂
    | build hm hc _ _ => exact absurd ht (not_or.2 ⟨hm, by rw [hc]; exact Bool.false_ne_true⟩)
  | build hm hc _ _ ihf ih =>
    cases h₂ with
    | pass ht _ => exact absurd ht (not_or.2 ⟨hm, by rw [hc]; exact Bool.false_ne_true⟩)
    | build _ _ hf₂ h₂ =>
      obtain ⟨rfl, rfl⟩ := ihf hf₂
      exact ih h₂

theorem met_subset (h : Builds g met c ts met' c') : met ⊆ met' := by
  induction h with
  | done met c => exact List.Subset.refl _
  | pass _ _ ih => exact ih
  | build _ _ _ _ ihf ih => exact fun u hu => ih (ihf (List.mem_cons_of_mem _ hu))

theorem nodup (h : Builds g met c ts met' c') (hn : met.Nodup) : met'.Nodup := by
  induction h with
  | done met c => exact hn
  | pass _ _ ih => exact ih hn
  | build hm _ _ _ ihf ih => exact ih (ihf (List.nodup_cons.2 ⟨hm, hn⟩))

/-- Whatever is kept, there is one discovery for each type that is met. -/
theorem discoveries (h : Builds g met c ts met' c') :
    c'.discoveries + met.length = c.discoveries + met'.length := by
  induction h with
  | done met c => rfl
  | pass _ _ ih => exact ih
  | build _ _ _ _ ihf ih =>
    rw [discoveries_add, List.length_cons] at ihf
    omega

theorem reach (h : Builds g met c ts met' c') {u : Descriptor} (hu : u ∈ met') :
    u ∈ met ∨ ∃ t ∈ ts, g.Reach t u := by
  induction h with
  | done met c => exact .inl hu
  | pass _ _ ih =>
    refine (ih hu).imp_right ?_
    rintro ⟨v, hv, hr⟩
    exact ⟨v, List.mem_cons_of_mem _ hv, hr⟩
  | @build _ _ _ _ _ _ _ t _ _ _ _ ihf ih =>
    rcases ih hu with hu | ⟨v, hv, hr⟩
    · rcases ihf hu with hu | ⟨v, hv, hr⟩
      · rcases List.mem_cons.1 hu with rfl | hu
        · exact .inr ⟨u, List.mem_cons_self, .refl u⟩
        · exact .inl hu
      · exact .inr ⟨t, List.mem_cons_self, .step hv hr⟩
    · exact .inr ⟨v, List.mem_cons_of_mem _ hv, hr⟩

end Builds

/-! ## It comes to an end -/

variable {g : Graph} {c c' : Catalog}

theorem without_filter (t : Descriptor) (l met : List Descriptor) :
    without t (l.filter (· ∉ met)) = l.filter (· ∉ t :: met) := by
  rw [without, List.filter_filter]
  refine List.filter_congr fun u _ => ?_
  simp

/-- Of types closed under fields, fewer are left to be met with each one that is met, those below it
included. What comes behind the types is explored with those that are left then. -/
theorem exists_builds {types : List Descriptor} (hf : ∀ t ∈ types, ∀ u ∈ g.fieldTypes t, u ∈ types)
    (met : List Descriptor) (c : Catalog) {ts : List Descriptor} (hts : ∀ t ∈ ts, t ∈ types) :
    ∃ met' c', Builds g met c ts met' c' ∧ ∀ rest,
      c.explore g (types.filter (· ∉ met)) (ts ++ rest) =
        c'.explore g (types.filter (· ∉ met')) rest := by
  match ts with
  | [] => exact ⟨met, c, .done met c, fun _ => rfl⟩
  | t :: ts =>
    have ht : t ∈ types := hts t List.mem_cons_self
    have hrest : ∀ u ∈ ts, u ∈ types := fun u hu => hts u (List.mem_cons_of_mem _ hu)
    by_cases hp : t ∈ met ∨ c.store.contains t = true
    · obtain ⟨met', c', h, he⟩ := exists_builds hf met c hrest
      refine ⟨met', c', .pass hp h, fun rest => ?_⟩
      rw [List.cons_append, explore, if_neg, he]
      rintro ⟨hm, hc⟩
      rcases hp with hp | hp
      · simp [hp] at hm
      · rw [hc] at hp
        cases hp
    · obtain ⟨hm, hc⟩ := not_or.1 hp
      rw [Bool.not_eq_true] at hc
      have hfresh : t ∈ types.filter (· ∉ met) := by simp [ht, hm]
      have hlt : (types.filter (· ∉ t :: met)).length < (types.filter (· ∉ met)).length := by
        rw [← without_filter]
        exact length_without_lt hfresh
      obtain ⟨below, c₁, h₁, he₁⟩ := exists_builds hf (t :: met) (c.add (g.shape t)) (hf t ht)
      have hle : (types.filter (· ∉ below)).length ≤ (types.filter (· ∉ t :: met)).length := by
        rw [← List.countP_eq_length_filter, ← List.countP_eq_length_filter]
        refine List.countP_mono_left fun u _ hu => ?_
        simp only [decide_eq_true_eq] at hu ⊢
        exact fun hm => hu (h₁.met_subset hm)
      obtain ⟨met', c', h, he⟩ := exists_builds hf below c₁ hrest
      refine ⟨met', c', .build hm hc h₁ h, fun rest => ?_⟩
      rw [List.cons_append, explore, if_pos ⟨hfresh, hc⟩, without_filter, ← he, ← he₁]
      rfl
termination_by ((types.filter (· ∉ met)).length, ts.length)
decreasing_by
  · exact Prod.Lex.right _ (Nat.lt_succ_self _)
  · exact Prod.Lex.left _ _ hlt
  · exact Prod.Lex.left _ _ (Nat.lt_of_le_of_lt hle hlt)

theorem exists_builds_shapeOf (g : Graph) (c : Catalog) (t : Descriptor) :
    ∃ met, Builds g [] c [t] met (c.shapeOf g t).2 := by
  have hf : ∀ u ∈ t :: g.memberTypes, ∀ v ∈ g.fieldTypes u, v ∈ t :: g.memberTypes :=
    fun _ _ _ hv => List.mem_cons_of_mem _ (Graph.fieldTypes_subset hv)
  have ht : ∀ u ∈ [t], u ∈ t :: g.memberTypes := fun u hu =>
    List.mem_singleton.1 hu ▸ List.mem_cons_self
  obtain ⟨met, c', h, he⟩ := exists_builds hf [] c ht
  have hall : (t :: g.memberTypes).filter (· ∉ ([] : List Descriptor)) = t :: g.memberTypes :=
    List.filter_eq_self.2 fun _ _ => by simp
  have hc : (c.shapeOf g t).2 = c' := by
    have := he []
    rwa [hall, List.append_nil, explore.eq_1] at this
  exact ⟨met, hc ▸ h⟩

/-! ## Nothing is kept -/

/-- The catalog holds no shapes and keeps none. -/
structure Forgetful (c : Catalog) : Prop where
  retention : c.store.retention = .none
  shapes : c.store.shapes = []

theorem Forgetful.contains (h : c.Forgetful) (t : Descriptor) : c.store.contains t = false := by
  rw [Store.contains, Store.get?, h.shapes]
  rfl

theorem Forgetful.add (h : c.Forgetful) (s : Shape) : (c.add s).Forgetful where
  retention := (retention_add s).trans h.retention
  shapes := by
    rw [shapes_add, if_neg (by rw [h.retention]; exact Retention.noConfusion), h.shapes]

theorem Forgetful.addAll (h : c.Forgetful) (ts : List Descriptor) : (c.addAll g ts).Forgetful := by
  induction ts generalizing c with
  | nil => exact h
  | cons t ts ih => exact ih (h.add (g.shape t))

theorem forgetful_shapeOf (c : Catalog) (t : Descriptor)
    (h : c.store.retention = .none → c.Forgetful)
    (hr : (c.shapeOf g t).2.store.retention = .none) : (c.shapeOf g t).2.Forgetful := by
  rw [(shapeOf_spec g c t).1] at hr
  rw [shapeOf_snd]
  exact (h hr).addAll _

theorem Reachable.forgetful (h : c.Reachable g) (hr : c.store.retention = .none) : c.Forgetful := by
  induction h with
  | build kind lifetime => exact ⟨hr, rfl⟩
  | serve _ r ih =>
    refine serve_keeps (P := fun c => c.store.retention = .none → c.Forgetful) forgetful_shapeOf
      (fun c name t h => ?_) (fun c h => ?_) ih r hr
    · rcases serve_register_snd g c name t with e | e
      · rwa [e]
      · rw [e]
        exact forgetful_shapeOf _ t fun hr => ⟨hr, (h hr).shapes⟩
    · rcases serve_clear_snd g c with e | e
      · rwa [e]
      · rw [e]
        exact fun hr => ⟨hr, rfl⟩
  | guard _ _ ih => exact ⟨hr, (ih hr).shapes⟩
  | @lapse c _ shapes hs ih =>
    have hnone : c.shapes = [] := (ih hr).shapes
    rw [hnone] at hs
    exact ⟨hr, List.sublist_nil.1 hs⟩

namespace Builds

variable {met met' ts : List Descriptor}

theorem forgetful (h : Builds g met c ts met' c') (hc : c.Forgetful) : c'.Forgetful := by
  induction h with
  | done met c => exact hc
  | pass _ _ ih => exact ih hc
  | @build _ _ _ _ _ _ _ t _ _ _ _ ihf ih => exact ih (ihf (hc.add (g.shape t)))

theorem mem_of_mem (h : Builds g met c ts met' c') (hc : c.Forgetful) {t : Descriptor}
    (ht : t ∈ ts) : t ∈ met' := by
  induction h with
  | done met c => cases ht
  | pass hp h ih =>
    rcases List.mem_cons.1 ht with rfl | ht
    · refine hp.elim (fun hm => h.met_subset hm) fun hk => ?_
      rw [hc.contains t] at hk
      cases hk
    · exact ih hc ht
  | build _ _ hf h _ ih =>
    rcases List.mem_cons.1 ht with rfl | ht
    · exact h.met_subset (hf.met_subset List.mem_cons_self)
    · exact ih (hf.forgetful (hc.add _)) ht

/-- At each later type, a type that was met before has its fields met already, or they are met above
it. -/
theorem closed (h : Builds g met c ts met' c') (hc : c.Forgetful) {u : Descriptor} (hu : u ∈ met') :
    u ∈ met ∨ g.fieldTypes u ⊆ met' := by
  induction h with
  | done met c => exact .inl hu
  | pass _ _ ih => exact ih hc hu
  | @build _ _ _ _ _ _ _ t _ _ hf h ihf ih =>
    have hc₁ := hc.add (g.shape t)
    rcases ih (hf.forgetful hc₁) hu with hu | hu
    · rcases ihf hc₁ hu with hu | hu
      · rcases List.mem_cons.1 hu with rfl | hu
        · exact .inr fun v hv => h.met_subset (hf.mem_of_mem hc₁ hv)
        · exact .inl hu
      · exact .inr fun v hv => h.met_subset (hu hv)
    · exact .inr hu

theorem mem_iff_reach {t : Descriptor} (h : Builds g [] c [t] met' c') (hc : c.Forgetful)
    {u : Descriptor} : u ∈ met' ↔ g.Reach t u := by
  constructor
  · intro hu
    rcases h.reach hu with hu | ⟨v, hv, hr⟩
    · cases hu
    · rwa [List.mem_singleton.1 hv] at hr
  · intro hr
    refine hr.of_closed (fun v hv w hw => ?_) (h.mem_of_mem hc List.mem_cons_self)
    exact (h.closed hc hv).resolve_left List.not_mem_nil hw

end Builds

/-- Over a catalog whose shapes expire at once, building the shape of a type comes to an end, meets
the types that are reached from it and no type twice, and discovers each of them once. -/
theorem expiring_builds_once (h : c.Reachable g) (hr : c.store.retention = .none) (t : Descriptor) :
    ∃ met, (∀ met' c', Builds g [] c [t] met' c' ↔ met' = met ∧ c' = (c.shapeOf g t).2) ∧
      met.Nodup ∧ (∀ u, u ∈ met ↔ g.Reach t u) ∧
      (c.shapeOf g t).2.discoveries = c.discoveries + met.length := by
  obtain ⟨met, hb⟩ := exists_builds_shapeOf g c t
  refine ⟨met, fun met' c' => ⟨fun h' => hb.unique h', ?_⟩, hb.nodup .nil,
    fun u => hb.mem_iff_reach (h.forgetful hr), hb.discoveries⟩
  rintro ⟨rfl, rfl⟩
  exact hb

/-- Of two records in a circle both are discovered, and both again with the next request. -/
theorem expiring_builds_once_circle :
    let a := Descriptor.record "A" 0
    let b := Descriptor.record "B" 1
    let g : Graph := ⟨[[⟨"next", false, b⟩, ⟨"self", false, a⟩], [⟨"next", false, a⟩]]⟩
    let c := ((build .expiring 0).shapeOf g a).2
    Reachable g c ∧ (c.shapeOf g b).2.discoveries = c.discoveries + 2 := by
  intro a b g c
  have hc : Reachable g c := (Reachable.build .expiring 0).serve (.shapeOf a)
  have hr : c.store.retention = .none := (shapeOf_spec g (build .expiring 0) a).1
  obtain ⟨met, -, hn, hm, hd⟩ := expiring_builds_once hc hr b
  have hfa : g.fieldTypes a = [b, a] := by decide
  have hfb : g.fieldTypes b = [a] := by decide
  have hmem : ∀ u, u ∈ met ↔ u ∈ [b, a] := by
    intro u
    rw [hm]
    constructor
    · refine fun h => h.of_closed (P := (· ∈ [b, a])) (fun v hv w hw => ?_) List.mem_cons_self
      rcases List.mem_cons.1 hv with rfl | hv
      · rw [hfb] at hw
        exact List.mem_cons_of_mem _ hw
      · rwa [List.mem_singleton.1 hv, hfa] at hw
    · intro hu
      rcases List.mem_cons.1 hu with rfl | hu
      · exact .refl _
      · rw [List.mem_singleton.1 hu]
        exact .step (by rw [hfb]; exact List.mem_cons_self) (.refl a)
  have hlen : met.length = 2 :=
    ((List.perm_ext_iff_of_nodup hn (by decide)).2 hmem).length_eq
  exact ⟨hc, by rw [hd, hlen]⟩

end Catalog

end Stencil
