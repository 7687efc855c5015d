import CodeDeck.Proofs.Sort
import CodeDeck.Rank
import Mathlib.Data.List.Nodup

/-! The ranking of blocks. It holds the first block of each name and kind, the better scores first, and blocks of the
same score in the order of the input; this determines it. With more blocks at the end of the input, blocks come in
between. -/

namespace CodeDeck.Rank

/-! The first items. -/

section Firsts

variable {α κ : Type} [DecidableEq κ] {label : α → κ} {seen : List κ} {items : List α}

theorem mem_firsts_iff {item : α} :
    item ∈ firsts label seen items ↔
      label item ∉ seen ∧ items.find? (fun other => label other = label item) = some item := by
  induction items generalizing seen with
  | nil => simp [firsts]
  | cons first rest ih =>
    rw [firsts]
    by_cases known : label first ∈ seen
    · rw [if_pos known, ih]
      by_cases same : label first = label item
      · simp [← same, known]
      · rw [List.find?_cons_of_neg (by simpa using same)]
    · rw [if_neg known, List.mem_cons, ih, List.mem_cons, not_or]
      by_cases same : label first = label item
      · rw [List.find?_cons_of_pos (by simpa using same), Option.some.injEq]
        simp only [same, not_true_eq_false, false_and, or_false, eq_comm (a := first), iff_and_self]
        rintro rfl
        exact known
      · have other : item ≠ first := by
          rintro rfl
          exact same rfl
        rw [List.find?_cons_of_neg (by simpa using same)]
        simp [other, Ne.symm same]

theorem nodup_firsts (label : α → κ) (seen : List κ) (items : List α) :
    ((firsts label seen items).map label).Nodup := by
  induction items generalizing seen with
  | nil => exact List.nodup_nil
  | cons first rest ih =>
    rw [firsts]
    split
    · exact ih seen
    · rw [List.map_cons, List.nodup_cons]
      refine ⟨?_, ih _⟩
      intro again
      obtain ⟨item, member, same⟩ := List.mem_map.1 again
      exact (mem_firsts_iff.1 member).1 (same ▸ List.mem_cons_self)

theorem pairwise_idxOf_firsts [DecidableEq α] (label : α → κ) (seen : List κ) (items : List α) :
    (firsts label seen items).Pairwise fun a b => items.idxOf a < items.idxOf b := by
  induction items generalizing seen with
  | nil => exact .nil
  | cons first rest ih =>
    have behind {seen : List κ} (known : label first ∈ seen) {item : α} (member : item ∈ firsts label seen rest) :
        (first :: rest).idxOf item = rest.idxOf item + 1 := by
      apply List.idxOf_cons_ne
      rintro rfl
      exact (mem_firsts_iff.1 member).1 known
    have later {seen : List κ} (known : label first ∈ seen) :
        (firsts label seen rest).Pairwise fun a b => (first :: rest).idxOf a < (first :: rest).idxOf b := by
      apply (ih seen).imp_of_mem
      intro a b here there less
      rw [behind known here, behind known there]
      exact Nat.succ_lt_succ less
    rw [firsts]
    split
    · next known => exact later known
    · refine List.pairwise_cons.2 ⟨fun item member => ?_, later List.mem_cons_self⟩
      rw [List.idxOf_cons_self, behind List.mem_cons_self member]
      exact Nat.succ_pos _

theorem firsts_of_nodup (distinct : (items.map label).Nodup) (new : ∀ item ∈ items, label item ∉ seen) :
    firsts label seen items = items := by
  induction items generalizing seen with
  | nil => rfl
  | cons first rest ih =>
    obtain ⟨own, others⟩ := List.forall_mem_cons.1 new
    rw [List.map_cons, List.nodup_cons] at distinct
    rw [firsts, if_neg own, ih distinct.2]
    intro item member
    rw [List.mem_cons, not_or]
    refine ⟨?_, others item member⟩
    intro same
    exact distinct.1 (same ▸ List.mem_map_of_mem member)

end Firsts

/-! Rankings. -/

/-- The one block has the better score, or the same score and comes first in the input. -/
def Precedes (blocks : List Block) (a b : Block) : Prop :=
  score b < score a ∨ score a = score b ∧ blocks.idxOf a < blocks.idxOf b

/-- The first block of each name and kind, in the order of scores and, where these are the same, of the input. -/
structure IsRanking (blocks ranked : List Block) : Prop where
  distinct : (ranked.map label).Nodup
  firsts : ∀ b, b ∈ ranked ↔ blocks.find? (fun other => label other = label b) = some b
  ordered : ranked.Pairwise (Precedes blocks)

theorem Precedes.asymm {blocks : List Block} {a b : Block} (before : Precedes blocks a b) : ¬ Precedes blocks b a := by
  unfold Precedes at *
  omega

theorem noWorse_trans (a b c : Block) (first : decide (score b ≤ score a) = true)
    (second : decide (score c ≤ score b) = true) : decide (score c ≤ score a) = true :=
  decide_eq_true (Nat.le_trans (of_decide_eq_true second) (of_decide_eq_true first))

theorem noWorse_total (a b : Block) : (decide (score b ≤ score a) || decide (score a ≤ score b)) = true := by
  rw [Bool.or_eq_true, decide_eq_true_eq, decide_eq_true_eq]
  exact Nat.le_total ..

theorem pairwise_score_rank (blocks : List Block) : (rank blocks).Pairwise fun a b => score b ≤ score a :=
  (List.pairwise_mergeSort noWorse_trans noWorse_total (firsts label [] blocks)).imp of_decide_eq_true

theorem isRanking_rank (blocks : List Block) : IsRanking blocks (rank blocks) where
  distinct := ((rank_perm blocks).map label).nodup_iff.2 (nodup_firsts label [] blocks)
  firsts := by
    intro b
    rw [(rank_perm blocks).mem_iff, mem_firsts_iff]
    simp
  ordered := by
    rw [List.pairwise_iff_forall_sublist]
    intro a b part
    have noWorse : score b ≤ score a := List.pairwise_iff_forall_sublist.1 (pairwise_score_rank blocks) part
    rcases Nat.lt_or_eq_of_le noWorse with better | same
    · exact .inl better
    · -- among blocks of one score the sorting changes nothing
      have tied : (rank blocks).filter (fun c => score c = score a) =
          (Rank.firsts label [] blocks).filter fun c => score c = score a := by
        apply filter_mergeSort noWorse_trans noWorse_total
        intro c d first second
        rw [of_decide_eq_true first, of_decide_eq_true second]
        exact decide_eq_true (Nat.le_refl _)
      have kept := part.filter fun c => score c = score a
      rw [tied] at kept
      have both : [a, b].filter (fun c => score c = score a) = [a, b] := by simp [same]
      rw [both] at kept
      exact .inr ⟨same.symm, List.pairwise_iff_forall_sublist.1 (pairwise_idxOf_firsts label [] blocks)
        (kept.trans List.filter_sublist)⟩

namespace IsRanking

variable {blocks more ranked ranked' : List Block}

theorem unique (is : IsRanking blocks ranked) (is' : IsRanking blocks ranked') : ranked = ranked' := by
  have same : ranked.Perm ranked' := by
    rw [List.perm_ext_iff_of_nodup (is.distinct.of_map label) (is'.distinct.of_map label)]
    intro b
    rw [is.firsts, is'.firsts]
  exact same.eq_of_pairwise (fun a b _ _ before after => absurd after before.asymm) is.ordered is'.ordered

theorem mem (is : IsRanking blocks ranked) {b : Block} (member : b ∈ ranked) : b ∈ blocks :=
  List.mem_of_find?_eq_some ((is.firsts b).1 member)

theorem restrict (is : IsRanking (blocks ++ more) ranked) (is' : IsRanking blocks ranked') :
    IsRanking blocks (ranked.filter (· ∈ ranked')) where
  distinct := is.distinct.sublist (List.filter_sublist.map label)
  firsts := by
    intro b
    rw [List.mem_filter, decide_eq_true_eq, is'.firsts, and_iff_right_iff_imp]
    intro found
    rw [is.firsts, List.find?_append, found]
    rfl
  ordered := by
    apply (is.ordered.sublist List.filter_sublist).imp_of_mem
    intro a b here there before
    rw [List.mem_filter, decide_eq_true_eq] at here there
    unfold Precedes at before ⊢
    rwa [List.idxOf_append_of_mem (is'.mem here.2), List.idxOf_append_of_mem (is'.mem there.2)] at before

end IsRanking

/-- The ranking of blocks is the only one there is, ranking again changes nothing, and the ranking of the blocks alone
is part of that with more blocks behind them. -/
theorem rank_only (blocks more : List Block) :
    (∀ ranked, IsRanking blocks ranked ↔ ranked = rank blocks) ∧ rank (rank blocks) = rank blocks ∧
      (rank blocks).Sublist (rank (blocks ++ more)) := by
  have own := isRanking_rank blocks
  refine ⟨fun ranked => ⟨fun is => is.unique own, fun same => same ▸ own⟩, ?_, ?_⟩
  · have firsts : firsts label [] (rank blocks) = rank blocks :=
      firsts_of_nodup own.distinct fun _ _ => List.not_mem_nil
    have sorted := (pairwise_score_rank blocks).imp fun noWorse => decide_eq_true noWorse
    rw [rank, firsts]
    exact List.mergeSort_of_pairwise sorted
  · have grown := isRanking_rank (blocks ++ more)
    rw [own.unique (grown.restrict own)]
    exact List.filter_sublist

end CodeDeck.Rank
