/-!
Sorting keeps ties: values that may stand in either order come out in the order they were given in.
-/

namespace FeastCalendar.Sorting

variable {α : Type} {before : α → α → Bool}

theorem filter_mergeSort
    (trans : ∀ first second third, before first second = true → before second third = true →
      before first third = true)
    (total : ∀ left right, (before left right || before right left) = true) {alike : α → Bool}
    (tied : ∀ left right, alike left = true → alike right = true → before left right = true)
    (given : List α) : (given.mergeSort before).filter alike = given.filter alike := by
  have ordered : (given.filter alike).Pairwise fun left right => before left right = true := by
    refine List.pairwise_of_forall_mem_list fun left leftMember right rightMember => ?_
    exact tied left right (List.mem_filter.mp leftMember).2 (List.mem_filter.mp rightMember).2
  -- Tied values are in order as they stand, so sorting keeps them as a sublist.
  have kept := List.sublist_mergeSort trans total ordered List.filter_sublist
  have alone := kept.filter alike
  rw [List.filter_filter] at alone
  simp only [Bool.and_self] at alone
  exact (alone.eq_of_length ((List.mergeSort_perm given before).filter _).length_eq.symm).symm

/-- Sorting depends on the order only as far as it is one of the values sorted. -/
theorem mergeSort_congr {other : α → α → Bool} {given : List α}
    (same : ∀ left ∈ given, ∀ right ∈ given, before left right = other left right) :
    given.mergeSort before = given.mergeSort other := by
  have mapped := List.map_mergeSort (f := id) (r := before) (s := other) (l := given) same
  rwa [List.map_id, List.map_id] at mapped

end FeastCalendar.Sorting
