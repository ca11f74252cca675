import Mathlib.Data.List.Sort

/-!
# Order statistics

What is at an index of a list when it is sorted (`orderStatistic?`): one of its elements, that as
many elements are not greater than as the index says, and as many not smaller as are left from the
index on. Equal elements count as often as they occur.
-/

namespace IpServer

variable {α : Type*} [LinearOrder α]

/-- What is at the index `k` of a list when it is sorted, if there is something. -/
def orderStatistic? (xs : List α) (k : ℕ) : Option α := xs.mergeSort[k]?

variable {xs : List α} {k l : ℕ} {x y : α}

theorem pairwise_mergeSort_le (xs : List α) : xs.mergeSort.Pairwise (· ≤ ·) :=
  List.pairwise_mergeSort' (· ≤ ·) xs

/-- There is something at each index. -/
theorem exists_orderStatistic? (h : k < xs.length) : ∃ x, orderStatistic? xs k = some x := by
  have hlen : k < xs.mergeSort.length := by rwa [List.length_mergeSort]
  exact ⟨_, List.getElem?_eq_getElem hlen⟩

theorem mem_of_orderStatistic? (h : orderStatistic? xs k = some x) : x ∈ xs :=
  (List.mergeSort_perm xs _).mem_iff.1 (List.mem_of_getElem? h)

/-- What is at a later index is not smaller. -/
theorem orderStatistic?_mono (hkl : k ≤ l) (hx : orderStatistic? xs k = some x)
    (hy : orderStatistic? xs l = some y) : x ≤ y := by
  obtain ⟨hk, rfl⟩ := List.getElem?_eq_some_iff.1 hx
  obtain ⟨hl, rfl⟩ := List.getElem?_eq_some_iff.1 hy
  rcases hkl.eq_or_lt with rfl | hlt
  · exact le_refl _
  · exact List.pairwise_iff_getElem.1 (pairwise_mergeSort_le xs) k l hk hl hlt

/-- As many elements are not greater as there are up to the index. -/
theorem lt_countP_le_of_orderStatistic? (h : orderStatistic? xs k = some x) :
    k < xs.countP (· ≤ x) := by
  obtain ⟨hk, -⟩ := List.getElem?_eq_some_iff.1 h
  have hall : ∀ y ∈ xs.mergeSort.take (k + 1), decide (y ≤ x) = true := by
    intro y hy
    obtain ⟨i, hi, rfl⟩ := List.mem_iff_getElem.1 hy
    rw [List.length_take, Nat.lt_min] at hi
    rw [List.getElem_take, decide_eq_true_eq]
    exact orderStatistic?_mono (Nat.lt_succ_iff.1 hi.1) (List.getElem?_eq_getElem hi.2) h
  calc k < (xs.mergeSort.take (k + 1)).length := by
        rw [List.length_take]
        exact lt_min (Nat.lt_succ_self k) hk
    _ = (xs.mergeSort.take (k + 1)).countP (· ≤ x) := (List.countP_eq_length.2 hall).symm
    _ ≤ xs.mergeSort.countP (· ≤ x) := (List.take_sublist _ _).countP_le
    _ = xs.countP (· ≤ x) := (List.mergeSort_perm xs _).countP_eq _

/-- As many elements are not smaller as there are from the index on. -/
theorem length_sub_le_countP_of_orderStatistic? (h : orderStatistic? xs k = some x) :
    xs.length - k ≤ xs.countP (x ≤ ·) := by
  have hall : ∀ y ∈ xs.mergeSort.drop k, decide (x ≤ y) = true := by
    intro y hy
    obtain ⟨i, hi, rfl⟩ := List.mem_iff_getElem.1 hy
    rw [List.length_drop, Nat.lt_sub_iff_add_lt'] at hi
    rw [List.getElem_drop, decide_eq_true_eq]
    exact orderStatistic?_mono (Nat.le_add_right k i) h (List.getElem?_eq_getElem hi)
  calc xs.length - k = (xs.mergeSort.drop k).length := by
        rw [List.length_drop, List.length_mergeSort]
    _ = (xs.mergeSort.drop k).countP (x ≤ ·) := (List.countP_eq_length.2 hall).symm
    _ ≤ xs.mergeSort.countP (x ≤ ·) := (List.drop_sublist _ _).countP_le
    _ = xs.countP (x ≤ ·) := (List.mergeSort_perm xs _).countP_eq _

end IpServer
