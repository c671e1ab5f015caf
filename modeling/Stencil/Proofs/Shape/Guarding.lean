import Stencil.Proofs.Shape.Lapsing

/-!
# Guarded catalogs

A guarded catalog refuses to register and to clear, and a refusal leaves no trace. What it is asked
still makes it discover types and give them names, but only names that were free: a name stands for
the same type from then on, whatever is asked and whichever shapes lapse.
-/

namespace Stencil

/-- Something happens to a catalog. -/
inductive Event
  | request (r : Request)
  /-- Time passes, and of the kept shapes only these stay. -/
  | lapse (stays : Shape → Bool)

/-- What a guarded catalog names as the refused operation. -/
def Request.refused? : Request → Option String
  | register _ _ => some "register"
  | clear => some "clear"
  | shapeOf _ | resolve _ | contains _ | knowsField _ _ | suggestions _ _ => none

def Event.refused? : Event → Option String
  | request r => r.refused?
  | lapse _ => none

namespace Catalog

def meet (g : Graph) (c : Catalog) : Event → Catalog
  | .request r => (c.serve g r).2
  | .lapse stays => { c with store := { c.store with shapes := c.store.shapes.filter stays } }

def through (g : Graph) (c : Catalog) (es : List Event) : Catalog := es.foldl (meet g) c

/-- The requests among the events with their replies. -/
def answers (g : Graph) : Catalog → List Event → List (Request × Reply)
  | _, [] => []
  | c, .request r :: es => (r, (c.serve g r).1) :: answers g (c.serve g r).2 es
  | c, e :: es => answers g (c.meet g e) es

variable {g : Graph} {c : Catalog}

/-! ## Names and types -/

theorem alias?_eq_type_of_resolve (c : Catalog) (name : String) :
    (c.resolve g name).1.map (·.type) = c.store.alias? name := by
  unfold resolve
  cases c.store.alias? name with
  | none => rfl
  | some t =>
    show some (c.shapeOf g t).1.type = some t
    unfold shapeOf
    cases hs : c.store.get? t with
    | none => rfl
    | some s =>
      have ht : s.type = t := by simpa using List.find?_some hs
      exact congrArg some ht

theorem grows_shapeOf (c : Catalog) (t : Descriptor) :
    Directory.Grows c.store.aliases (c.shapeOf g t).2.store.aliases := by
  rw [(shapeOf_spec g c t).2.2.2.1]
  exact Directory.grows_bindAll _ _

/-! ## One event -/

/-- A guarded catalog in which these names stand for what they stood for. -/
structure Guards (d : Directory) (c : Catalog) : Prop where
  readOnly : c.readOnly = true
  grows : Directory.Grows d c.store.aliases

theorem serve_refused {r : Request} {operation : String} (hr : c.readOnly = true)
    (h : r.refused? = some operation) :
    c.serve g r = (.refused (.readOnly operation), c) := by
  cases r with
  | register name t =>
    cases h
    simp only [serve, register, hr, if_true]
  | clear =>
    cases h
    simp only [serve, clear, hr, if_true]
  | _ => cases h

theorem Guards.meet {d : Directory} (h : Guards d c) (e : Event) : Guards d (c.meet g e) := by
  cases e with
  | lapse stays => exact ⟨h.readOnly, h.grows⟩
  | request r =>
    refine serve_keeps (fun c t h => ?_) (fun c name t h => ?_) (fun c h => ?_) h r
    · exact ⟨(readOnly_shapeOf t).trans h.readOnly, h.grows.trans (grows_shapeOf c t)⟩
    · rwa [serve_refused (r := .register name t) h.readOnly rfl]
    · rwa [serve_refused (r := .clear) h.readOnly rfl]

/-! ## Any events -/

theorem Guards.through {d : Directory} (h : Guards d c) (es : List Event) :
    Guards d (c.through g es) := by
  induction es generalizing c with
  | nil => exact h
  | cons e es ih => exact ih (h.meet e)

theorem Guards.answers {d : Directory} (h : Guards d c) (es : List Event) :
    (c.answers g es).filter (·.1.refused?.isNone) =
      c.answers g (es.filter (·.refused?.isNone)) := by
  induction es generalizing c with
  | nil => rfl
  | cons e es ih =>
    cases e with
    | lapse stays => exact ih (h.meet (.lapse stays))
    | request r =>
      cases hr : r.refused? with
      | none =>
        rw [List.filter_cons_of_pos (by rw [Event.refused?, hr]; rfl), Catalog.answers,
          List.filter_cons_of_pos (by rw [hr]; rfl), Catalog.answers]
        exact congrArg _ (ih (h.meet (.request r)))
      | some operation =>
        -- The catalog is left as it was, and so are the later answers.
        rw [List.filter_cons_of_neg (by rw [Event.refused?, hr]; exact Bool.false_ne_true),
          Catalog.answers, List.filter_cons_of_neg (by rw [hr]; exact Bool.false_ne_true),
          serve_refused h.readOnly hr]
        exact ih h

/-- From whatever state a catalog is guarded, it refuses to register and to clear and is as if it had
not been asked to, and a name that stands for a type does so after any events. -/
theorem guarded_names_stay (g : Graph) (c : Catalog) (es : List Event) :
    let guarded := { c with readOnly := true }
    let later := guarded.through g es
    (∀ r operation, r.refused? = some operation →
      later.serve g r = (.refused (.readOnly operation), later)) ∧
    (guarded.answers g es).filter (·.1.refused?.isNone) =
      guarded.answers g (es.filter (·.refused?.isNone)) ∧
    ∀ name t, (guarded.resolve g name).1.map (·.type) = some t →
      (later.resolve g name).1.map (·.type) = some t := by
  intro guarded later
  have h : Guards c.store.aliases guarded := ⟨rfl, .refl _⟩
  have hlater : Guards c.store.aliases later := h.through es
  refine ⟨fun r operation hr => serve_refused hlater.readOnly hr, h.answers es, fun name t ht => ?_⟩
  rw [alias?_eq_type_of_resolve] at ht ⊢
  exact hlater.grows name t ht

/-- A name stays with the first of two records that share it, though the other one is discovered. -/
theorem guarded_names_stay_order :
    let g : Graph := ⟨[[], [⟨"total", false, .bool⟩]]⟩
    let first := Descriptor.record "Order" 0
    let c : Catalog := ⟨⟨.none, [], Table.empty.set "Order" first⟩, 1, false⟩
    let es : List Event := [.request (.register "Order" (.record "Order" 1)), .lapse fun _ => false,
      .request (.shapeOf (.record "Order" 1)), .request .clear]
    let guarded := { c with readOnly := true }
    guarded.serve g .clear = (.refused (.readOnly "clear"), guarded) ∧
      ((guarded.through g es).resolve g "Order").1.map (·.type) = some first := by
  intro g first c es guarded
  have hn : (guarded.resolve g "Order").1.map (·.type) = some first := by
    rw [alias?_eq_type_of_resolve]
    decide
  exact ⟨(guarded_names_stay g c []).1 .clear "clear" rfl, (guarded_names_stay g c es).2.2 "Order" first hn⟩

end Catalog

end Stencil
