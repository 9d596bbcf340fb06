import Gherkin.Proofs.Sorting
import Gherkin.Step.Registry

/-! # Suggestions

The definitions that are suggested for a text are the first ones when all of the registry are put in order by the
distance of their patterns from the text, and within a distance by registration. This order is total, so however many
are asked for, none that is left out comes before one that is suggested (`Gherkin.StepRegistry.suggest_nearest`).
-/

namespace Gherkin

variable {η : Type}

/-- How far the pattern of a definition is from a text, without regard to case. -/
def StepDefinition.distance (text : Text) (d : StepDefinition η) : Nat :=
  editDistance (Text.lower text) (Text.lower d.pattern)

namespace StepRegistry

/-- Whether there are definitions at two places of a registry, and the first one is nearer to a text than the second,
or as near and registered earlier. -/
def Precedes (r : StepRegistry η) (text : Text) (i j : Nat) : Prop :=
  ∃ a b, r.definitions[i]? = some a ∧ r.definitions[j]? = some b ∧
    (a.distance text < b.distance text ∨ a.distance text = b.distance text ∧ i < j)

/-- The distances are computed once and sorted beside the definitions; the definitions alone are sorted alike. -/
theorem ranked_eq_mergeSort (r : StepRegistry η) (text : Text) :
    r.ranked text = r.definitions.mergeSort fun a b => decide (a.distance text ≤ b.distance text) := by
  have keys : ∀ x ∈ r.definitions.map fun d => (d.distance text, d), x.1 = x.2.distance text := by
    intro x member
    obtain ⟨d, _, rfl⟩ := List.mem_map.mp member
    rfl
  have definitions : (r.definitions.map fun d => (d.distance text, d)).map Prod.snd = r.definitions := by
    rw [List.map_map]
    exact List.map_id _
  rw [← definitions]
  apply List.map_mergeSort
  intro x first y second
  rw [keys x first, keys y second]

theorem suggest_natCast (r : StepRegistry η) (text : Text) (n : Nat) :
    r.suggest text (some n) = (r.ranked text).take n := by
  simp [suggest, firstItems]

/-- Ranked definitions stand at all places of the registry, in the order of their distances. -/
theorem ranked_places (r : StepRegistry η) (text : Text) :
    ∃ places : List Nat, places.Perm (List.range r.definitions.length) ∧ places.Pairwise (r.Precedes text) ∧
      places.map (r.definitions[·]?) = (r.ranked text).map some := by
  obtain ⟨places, sorted, chosen⟩ := exists_sortedPlaces (StepDefinition.distance text) r.definitions
    (fun _ => true) fun _ _ _ _ => rfl
  refine ⟨places, sorted.perm_range fun _ _ => rfl, ?_, ?_⟩
  · apply sorted.ordered.imp_of_mem
    intro i j first second before
    obtain ⟨a, atFirst, _⟩ := (sorted.mem_iff i).mp first
    obtain ⟨b, atSecond, _⟩ := (sorted.mem_iff j).mp second
    exact ⟨a, b, atFirst, atSecond, before a b atFirst atSecond⟩
  · rw [chosen, ranked_eq_mergeSort, List.filter_true]

/-- As many definitions as are asked for, or all if there are fewer, are suggested for a text: they stand at different
places of the registry, nearer ones come first, equally near ones in the order of registration, and every definition
that is left out comes behind all of them. -/
theorem suggest_nearest (r : StepRegistry η) (text : Text) (n : Nat) :
    (r.suggest text (some n)).length = min n r.definitions.length ∧
    ∃ places : List Nat,
      places.map (r.definitions[·]?) = (r.suggest text (some n)).map some ∧
      places.Nodup ∧
      places.Pairwise (r.Precedes text) ∧
      ∀ i ∈ places, ∀ j < r.definitions.length, j ∉ places → r.Precedes text i j := by
  obtain ⟨order, all, sorted, ranked⟩ := r.ranked_places text
  have chosen : (order.take n).map (r.definitions[·]?) = (r.suggest text (some n)).map some := by
    rw [suggest_natCast, List.map_take, ranked, ← List.map_take]
  refine ⟨?_, order.take n, chosen, ?_, ?_, ?_⟩
  · have lengths := congrArg List.length chosen
    rwa [List.length_map, List.length_map, List.length_take, all.length_eq, List.length_range, eq_comm] at lengths
  · exact (all.nodup_iff.mpr List.nodup_range).sublist (List.take_sublist n order)
  · exact sorted.sublist (List.take_sublist n order)
  · intro i chosen j inside leftOut
    -- a place that is not among the first stands behind them, and the whole order is sorted
    have later : j ∈ order.drop n := by
      have member : j ∈ order.take n ++ order.drop n := by
        rw [List.take_append_drop]
        exact all.mem_iff.mpr (List.mem_range.mpr inside)
      exact (List.mem_append.mp member).resolve_left leftOut
    rw [← List.take_append_drop n order] at sorted
    exact (List.pairwise_append.mp sorted).2.2 i chosen j later

end StepRegistry

end Gherkin
