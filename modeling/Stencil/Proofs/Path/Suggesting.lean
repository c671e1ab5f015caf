import Stencil.Proofs.Path.Registering
import Stencil.Proofs.Text.Edits
import Stencil.Path.Template

/-!
# Suggested paths

Known paths are held in the order of their segments and suggested in that of their dotted forms,
which is another one where a segment has characters before the point. Registered paths with the same
dotted form are the same, so no two of the suggestions are alike.
-/

namespace Stencil

theorem Path.eq_of_dotted {t u : String} (h : (ofText t).dotted = (ofText u).dotted) :
    ofText t = ofText u := by
  rw [← ofText_dotted_ofText t, h, ofText_dotted_ofText]

namespace KnownPaths

variable {k : KnownPaths} {text : String}

theorem mem_suggestions {p : Path} : p ∈ k.suggestions text ↔
    p ∈ k.paths ∧ Text.Edits 3 p.dotted.toList (Path.ofText text).dotted.toList := by
  rw [suggestions, List.mem_mergeSort, List.mem_filter, Path.isSimilarTo, decide_eq_true_eq,
    Path.distance, Text.distance_le_iff, pathSuggestionDistance]

theorem nodup_suggestions (k : KnownPaths) (text : String) : (k.suggestions text).Nodup := by
  rw [suggestions, (List.mergeSort_perm _ _).nodup_iff]
  exact k.nodup_paths.filter _

theorem pairwise_suggestions (k : KnownPaths) (text : String) :
    (k.suggestions text).Pairwise fun p q => p.dotted ≤ q.dotted := by
  have htrans : ∀ p q r : Path, decide (p.dotted ≤ q.dotted) = true →
      decide (q.dotted ≤ r.dotted) = true → decide (p.dotted ≤ r.dotted) = true := by
    simp only [decide_eq_true_eq]
    exact fun p q r => String.le_trans
  have htotal : ∀ p q : Path,
      (decide (p.dotted ≤ q.dotted) || decide (q.dotted ≤ p.dotted)) = true := by
    simp only [Bool.or_eq_true, decide_eq_true_eq]
    exact fun p q => String.le_total p.dotted q.dotted
  have h := List.pairwise_mergeSort htrans htotal
    (k.paths.filter (·.isSimilarTo (.ofText text) pathSuggestionDistance))
  simpa only [suggestions, decide_eq_true_eq] using h

/-- Registered paths in the order of their dotted forms are in strict order, since no two of them
have the same dotted form. -/
theorem pairwise_suggestions_lt (rs : List Registration) (text : String) :
    ((ofRegistrations rs).suggestions text).Pairwise fun p q => p.dotted < q.dotted := by
  have hread : ∀ p ∈ (ofRegistrations rs).suggestions text, ∃ u, p = Path.ofText u := by
    intro p hp
    obtain ⟨u, -, hu⟩ := mem_ofRegistrations.1 (mem_suggestions.1 hp).1
    exact ⟨u, hu⟩
  have h := (pairwise_suggestions _ text).and (nodup_suggestions (ofRegistrations rs) text)
  apply List.Pairwise.imp_of_mem _ h
  intro p q hp hq ⟨hle, hne⟩
  apply String.not_le.1
  intro hge
  obtain ⟨t, rfl⟩ := hread p hp
  obtain ⟨u, rfl⟩ := hread q hq
  exact hne (Path.eq_of_dotted (String.le_antisymm hle hge))

-- The exclamation mark comes before the point, but a segment before its continuations.
example : Path.ofText "a.b" < Path.ofText "a!" ∧
    (Path.ofText "a!").dotted < (Path.ofText "a.b").dotted := by decide

/-- The suggestions are the registered paths of which at most three edits of the dotted form make
the dotted form of the text. A template shows the first of them. -/
theorem suggestions_registered (rs : List Registration) (text : String) :
    let k := ofRegistrations rs
    let target := (Path.ofText text).dotted
    (∀ p, p ∈ k.suggestions text ↔
      (∃ u ∈ rs.flatMap Registration.texts, p = Path.ofText u) ∧
        Text.Edits 3 p.dotted.toList target.toList) ∧
    (k.suggestions text).Pairwise (fun p q => p.dotted < q.dotted) ∧
    ∀ limit, Template.suggestions k limit text = ((k.suggestions text).take limit).map Path.dotted := by
  intro k target
  refine ⟨fun p => ?_, pairwise_suggestions_lt rs text, fun limit => rfl⟩
  rw [mem_suggestions, mem_ofRegistrations]

end KnownPaths

end Stencil
