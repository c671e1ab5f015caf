import Stencil.Proofs.Shape.Guarding

/-!
# Catalogs that answer alike

A settled catalog replies as the directory of its names does, whichever shapes lapsed, except that a
guarded one refuses to be changed. So catalogs with the same names, guarded both or neither, reply the
same to every request and stay so.
-/

namespace Stencil.Catalog

variable {g : Graph} {c c' c'' : Catalog}

/-- Settled catalogs with the same names, guarded both or neither. -/
structure Alike (g : Graph) (c c' : Catalog) : Prop where
  settled : Settled g c
  settled' : Settled g c'
  names : c.store.aliases = c'.store.aliases
  readOnly : c.readOnly = c'.readOnly

/-! ## One catalog -/

theorem readOnly_serve (g : Graph) (c : Catalog) (r : Request) :
    (c.serve g r).2.readOnly = c.readOnly := by
  have hshape := readOnly_kept (g := g) c.readOnly
  refine serve_keeps hshape (fun c' name t h => ?_) (fun c' h => ?_) rfl r
  · rcases serve_register_snd g c' name t with e | e <;> rw [e]
    · exact h
    · exact hshape { c' with store := c'.store.setAlias name t true } t h
  · rcases serve_clear_snd g c' with e | e <;> rw [e] <;> exact h

/-- A settled catalog replies as its directory, and its names become those of the directory. -/
theorem Settled.serve_eq (h : Settled g c) {r : Request}
    (hw : c.readOnly = false ∨ r.refused? = none) :
    (c.serve g r).1 = (Directory.serve g c.store.aliases r).1 ∧
      (c.serve g r).2.store.aliases = (Directory.serve g c.store.aliases r).2 := by
  have hb : Bears g c.store.aliases c := ⟨h, rfl⟩
  have hst := steady h.names
  cases r with
  | shapeOf t => exact ⟨congrArg Reply.shape (shapeOf_fst_of_sound h.sound t), h.aliases_shapeOf t⟩
  | register name t =>
    rw [serve_register_of_writable (hw.resolve_right fun hr => by cases hr)]
    simp only [Directory.serve]
    cases name.isEmpty with
    | true => exact ⟨rfl, rfl⟩
    | false =>
      exact ⟨congrArg Reply.shape (shapeOf_fst_of_sound h.sound t),
        aliases_shapeOf_of_named (h.named_setAlias name t) t⟩
  | resolve name =>
    obtain ⟨hr, hm⟩ := hst.resolve hb name
    exact ⟨congrArg Reply.resolved hr, hm.2⟩
  | contains name => exact ⟨rfl, rfl⟩
  | knowsField name path =>
    obtain ⟨hr, hm⟩ := hst.knowsField hb name path
    exact ⟨congrArg Reply.truth hr, hm.2⟩
  | suggestions name path =>
    obtain ⟨hr, hm⟩ := hst.suggestions hb name path
    exact ⟨congrArg Reply.fields hr, hm.2⟩
  | clear =>
    rw [serve_clear_of_writable (hw.resolve_right fun hr => by cases hr)]
    exact ⟨rfl, rfl⟩

/-! ## Two catalogs -/

namespace Alike

theorem refl (h : Settled g c) : Alike g c c := ⟨h, h, rfl, rfl⟩

theorem symm (h : Alike g c c') : Alike g c' c :=
  ⟨h.settled', h.settled, h.names.symm, h.readOnly.symm⟩

theorem trans (h : Alike g c c') (h' : Alike g c' c'') : Alike g c c'' :=
  ⟨h.settled, h'.settled', h.names.trans h'.names, h.readOnly.trans h'.readOnly⟩

theorem lapse (h : Settled g c) {shapes : List Shape} (hs : shapes.Sublist c.shapes) :
    Alike g c { c with store := { c.store with shapes } } :=
  ⟨h, h.lapse hs, rfl, rfl⟩

theorem serve (h : Alike g c c') (r : Request) :
    (c.serve g r).1 = (c'.serve g r).1 ∧ Alike g (c.serve g r).2 (c'.serve g r).2 := by
  by_cases hw : c.readOnly = false ∨ r.refused? = none
  · obtain ⟨hr, hn⟩ := h.settled.serve_eq hw
    obtain ⟨hr', hn'⟩ := h.settled'.serve_eq (h.readOnly ▸ hw)
    rw [← h.names] at hr' hn'
    refine ⟨hr.trans hr'.symm, h.settled.serve r, h.settled'.serve r, hn.trans hn'.symm, ?_⟩
    rw [readOnly_serve, readOnly_serve, h.readOnly]
  · rw [not_or, Bool.not_eq_false] at hw
    obtain ⟨operation, ho⟩ := Option.ne_none_iff_exists'.1 hw.2
    rw [serve_refused hw.1 ho, serve_refused (h.readOnly ▸ hw.1) ho]
    exact ⟨rfl, h⟩

end Alike

end Stencil.Catalog
