import Mathlib.Data.List.Permutation

/-! Sorting: by a key the items come in the order of their keys, and items that the order does not tell apart keep the
order that they had. -/

namespace CodeDeck

theorem pairwise_mergeSort_key {α : Type} (key : α → Int) (items : List α) :
    (items.mergeSort fun a b => key a ≤ key b).Pairwise fun a b => key a ≤ key b := by
  have transitive (a b c : α) (first : decide (key a ≤ key b) = true) (second : decide (key b ≤ key c) = true) :
      decide (key a ≤ key c) = true :=
    decide_eq_true (Int.le_trans (of_decide_eq_true first) (of_decide_eq_true second))
  have total (a b : α) : (decide (key a ≤ key b) || decide (key b ≤ key a)) = true := by
    rw [Bool.or_eq_true, decide_eq_true_eq, decide_eq_true_eq]
    exact Int.le_total ..
  have sorted := List.pairwise_mergeSort transitive total items
  exact sorted.imp of_decide_eq_true

/-- Sorting keeps the order of items that it does not tell apart. -/
theorem filter_mergeSort {α : Type} {le : α → α → Bool}
    (transitive : ∀ a b c, le a b = true → le b c = true → le a c = true)
    (total : ∀ a b, (le a b || le b a) = true) {alike : α → Bool}
    (tied : ∀ a b, alike a = true → alike b = true → le a b = true) (items : List α) :
    (items.mergeSort le).filter alike = items.filter alike := by
  have sorted : (items.filter alike).Pairwise fun a b => le a b = true := by
    apply List.pairwise_filter.2
    exact List.pairwise_of_forall fun a b => tied a b
  have kept : (items.filter alike).Sublist (items.mergeSort le) :=
    List.sublist_mergeSort transitive total sorted List.filter_sublist
  have part : (items.filter alike).Sublist ((items.mergeSort le).filter alike) := by
    have inner := kept.filter alike
    rwa [List.filter_filter, funext fun a => Bool.and_self (alike a)] at inner
  have same := (List.mergeSort_perm items le).filter alike
  exact (part.eq_of_length same.length_eq.symm).symm

end CodeDeck
