import Mathlib.Data.List.Nodup
import Mathlib.Order.Lattice

/-! # Selecting and sorting

What a stable sort by a key makes of the entries of a list that pass a test, told by their places in the list:
each of them comes once, entries with smaller keys come first, and those with equal keys stay in their order
(`Gherkin.exists_sortedPlaces`).
-/

namespace Gherkin

variable {α κ : Type} [LinearOrder κ]

/-- Whether some places are those of the entries that pass a test, each once, by ascending keys and among equal
keys in the order of the list. -/
structure SortedPlaces (entries : List α) (passes : α → Prop) (key : α → κ) (places : List Nat) : Prop where
  mem_iff : ∀ i, i ∈ places ↔ ∃ a, entries[i]? = some a ∧ passes a
  once : places.Nodup
  ordered : places.Pairwise fun i j => ∀ a b, entries[i]? = some a → entries[j]? = some b →
    key a < key b ∨ key a = key b ∧ i < j

/-- Places sorted for one test are sorted for every test that agrees with it on the entries. -/
theorem SortedPlaces.congr {entries : List α} {passes others : α → Prop} {key : α → κ} {places : List Nat}
    (sorted : SortedPlaces entries passes key places) (same : ∀ a ∈ entries, passes a ↔ others a) :
    SortedPlaces entries others key places := by
  refine ⟨fun i => ?_, sorted.once, sorted.ordered⟩
  rw [sorted.mem_iff i]
  constructor
  · intro ⟨a, found, passed⟩
    exact ⟨a, found, (same a (List.mem_of_getElem? found)).mp passed⟩
  · intro ⟨a, found, passed⟩
    exact ⟨a, found, (same a (List.mem_of_getElem? found)).mpr passed⟩

/-- If every entry passes, the sorted places are all the places of the list in another order. -/
theorem SortedPlaces.perm_range {entries : List α} {passes : α → Prop} {key : α → κ} {places : List Nat}
    (sorted : SortedPlaces entries passes key places) (every : ∀ a ∈ entries, passes a) :
    places.Perm (List.range entries.length) := by
  rw [List.perm_ext_iff_of_nodup sorted.once List.nodup_range]
  intro i
  rw [sorted.mem_iff i, List.mem_range]
  constructor
  · intro ⟨a, found, _⟩
    exact (List.getElem?_eq_some_iff.mp found).1
  · intro inside
    have found := List.getElem?_eq_getElem inside
    exact ⟨entries[i], found, every _ (List.mem_of_getElem? found)⟩

theorem pairwise_zipIdx (entries : List α) : entries.zipIdx.Pairwise fun x y => x.2 < y.2 := by
  have numbers : (entries.zipIdx.map Prod.snd).Pairwise (· < ·) := by
    rw [List.zipIdx_map_snd]
    exact List.pairwise_lt_range'
  exact List.pairwise_map.mp numbers

variable (key : α → κ)

/-- Sorting numbered entries by a key keeps the order of their numbers among equal keys. -/
theorem pairwise_mergeSort_numbered {numbered : List (α × Nat)} (growing : numbered.Pairwise fun x y => x.2 < y.2) :
    (numbered.mergeSort fun x y => decide (key x.1 ≤ key y.1)).Pairwise fun x y =>
      key x.1 < key y.1 ∨ key x.1 = key y.1 ∧ x.2 < y.2 := by
  have transitive : ∀ x y z : α × Nat, decide (key x.1 ≤ key y.1) = true → decide (key y.1 ≤ key z.1) = true →
      decide (key x.1 ≤ key z.1) = true := by
    intro x y z first second
    exact decide_eq_true (le_trans (of_decide_eq_true first) (of_decide_eq_true second))
  have total : ∀ x y : α × Nat, (decide (key x.1 ≤ key y.1) || decide (key y.1 ≤ key x.1)) = true := by
    intro x y
    simpa using le_total (key x.1) (key y.1)
  induction numbered with
  | nil => simp
  | cons x rest ih =>
    obtain ⟨below, growing⟩ := List.pairwise_cons.mp growing
    obtain ⟨front, back, whole, others, before⟩ := List.mergeSort_cons transitive total x rest
    have sorted := List.pairwise_mergeSort transitive total (x :: rest)
    have ordered := ih growing
    rw [whole] at sorted ⊢
    rw [others] at ordered
    obtain ⟨inFront, inBack, across⟩ := List.pairwise_append.mp ordered
    obtain ⟨behind, _⟩ := List.pairwise_cons.mp (List.pairwise_append.mp sorted).2.1
    apply List.pairwise_append.mpr
    refine ⟨inFront, List.pairwise_cons.mpr ⟨?_, inBack⟩, ?_⟩
    · intro y member
      have later : y ∈ rest := by
        rw [← (rest.mergeSort_perm fun x y => decide (key x.1 ≤ key y.1)).mem_iff, others]
        exact List.mem_append_right _ member
      rcases lt_or_eq_of_le (of_decide_eq_true (behind y member)) with less | same
      · exact .inl less
      · exact .inr ⟨same, below y later⟩
    · intro y member z among
      rcases List.mem_cons.mp among with rfl | among
      · have notAbove := before y member
        simp only [Bool.not_eq_true', decide_eq_false_iff_not, not_le] at notAbove
        exact .inl notAbove
      · exact across y member z among

/-- The entries that pass a test, sorted by a key, are those at sorted places. -/
theorem exists_sortedPlaces (entries : List α) (passes : α → Bool) {le : α → α → Bool}
    (byKey : ∀ a ∈ entries, ∀ b ∈ entries, le a b = decide (key a ≤ key b)) :
    ∃ places, SortedPlaces entries (passes · = true) key places ∧
      places.map (entries[·]?) = ((entries.filter passes).mergeSort le).map some := by
  let numbered := entries.zipIdx.filter (passes ∘ Prod.fst)
  let sorted := numbered.mergeSort fun x y => decide (key x.1 ≤ key y.1)
  have growing : numbered.Pairwise fun x y => x.2 < y.2 := (pairwise_zipIdx entries).filter _
  have mem_sorted (x : α × Nat) : x ∈ sorted ↔ entries[x.2]? = some x.1 ∧ passes x.1 = true := by
    rw [List.mem_mergeSort, List.mem_filter, List.mem_zipIdx_iff_getElem?, Function.comp_apply]
  have ordered := pairwise_mergeSort_numbered key growing
  have kept : numbered.map Prod.fst = entries.filter passes := by
    rw [← List.filter_map, List.zipIdx_map_fst]
  refine ⟨sorted.map Prod.snd, ⟨?_, ?_, ?_⟩, ?_⟩
  · intro i
    constructor
    · intro member
      obtain ⟨⟨a, _⟩, among, rfl⟩ := List.mem_map.mp member
      exact ⟨a, (mem_sorted _).mp among⟩
    · intro ⟨a, found, passed⟩
      exact List.mem_map.mpr ⟨(a, i), (mem_sorted _).mpr ⟨found, passed⟩, rfl⟩
  · have permuted := (List.mergeSort_perm numbered fun x y => decide (key x.1 ≤ key y.1)).map Prod.snd
    rw [permuted.nodup_iff]
    exact (List.pairwise_map.mpr growing).imp Nat.ne_of_lt
  · apply List.pairwise_map.mpr
    refine ordered.imp_of_mem fun {x y} first second before a b atFirst atSecond => ?_
    obtain rfl := Option.some.inj (((mem_sorted x).mp first).1.symm.trans atFirst)
    obtain rfl := Option.some.inj (((mem_sorted y).mp second).1.symm.trans atSecond)
    exact before
  · have places : (sorted.map Prod.snd).map (entries[·]?) = (sorted.map Prod.fst).map some := by
      rw [List.map_map, List.map_map]
      apply List.map_congr_left
      intro x member
      exact ((mem_sorted x).mp member).1
    rw [places, List.map_mergeSort (s := le), kept]
    intro x first y second
    have among {x : α × Nat} (member : x ∈ numbered) : x.1 ∈ entries :=
      List.mem_of_getElem? (List.mem_zipIdx_iff_getElem?.mp (List.mem_filter.mp member).1)
    exact (byKey _ (among first) _ (among second)).symm

end Gherkin
