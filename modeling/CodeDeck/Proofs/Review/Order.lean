import CodeDeck.Proofs.Review.Current
import Mathlib.Data.List.Permutation

/-! The order of the queue. It holds the cards of the deck but the seen ones with the id acted on last, by tiers and
within a tier by the time of the last review; cards that stand alike keep their order. -/

namespace CodeDeck.Queue

inductive Tier where
  | unseen | needsWork | mastered
  deriving DecidableEq, Repr

namespace Tier

def all : List Tier := [unseen, needsWork, mastered]

def place : Tier → Nat
  | unseen => 0
  | needsWork => 1
  | mastered => 2

end Tier

section Order

variable (progress : Progress)

def tier (c : Card) : Tier :=
  match progress.get? c.id.key with
  | none => .unseen
  | some s => if s.mastered then .mastered else .needsWork

def reviewedAt (c : Card) : Int := ((progress.get? c.id.key).map (·.lastReviewedAt)).getD 0

/-- May the one card come before the other? -/
def NoLater (a b : Card) : Prop :=
  (tier progress a).place < (tier progress b).place ∨
    tier progress a = tier progress b ∧ reviewedAt progress a ≤ reviewedAt progress b

def remaining (lastActed : Json) (cards : List Card) : List Card :=
  cards.filter fun c => !(progress.has c.id.key && c.id.key == lastActed.key)

/-- Of the cards that remain all are in the queue, in the order of their tiers and times; where these are the same, in
the order of the cards. -/
structure Orders (lastActed : Json) (cards queue : List Card) : Prop where
  perm : queue.Perm (remaining progress lastActed cards)
  sorted : queue.Pairwise (NoLater progress)
  stable : ∀ t time,
    queue.filter (fun c => tier progress c = t ∧ reviewedAt progress c = time) =
      (remaining progress lastActed cards).filter fun c => tier progress c = t ∧ reviewedAt progress c = time

def older (a b : Card) : Bool := reviewedAt progress a ≤ reviewedAt progress b

theorem older_trans (a b c : Card) (first : older progress a b = true) (second : older progress b c = true) :
    older progress a c = true :=
  decide_eq_true (Int.le_trans (of_decide_eq_true first) (of_decide_eq_true second))

theorem older_total (a b : Card) : (older progress a b || older progress b a) = true := by
  rw [older, older, Bool.or_eq_true, decide_eq_true_eq, decide_eq_true_eq]
  exact Int.le_total ..

def ranked (cards : List Card) (t : Tier) : List Card :=
  (cards.filter fun c => tier progress c = t).mergeSort (older progress)

theorem ranked_unseen (cards : List Card) :
    ranked progress cards .unseen = cards.filter fun c => tier progress c = .unseen := by
  apply List.mergeSort_of_pairwise
  apply List.pairwise_filter.2
  apply List.pairwise_of_forall
  intro a b first second
  have zero (c : Card) (unseen : decide (tier progress c = .unseen) = true) : reviewedAt progress c = 0 := by
    have absent := of_decide_eq_true unseen
    unfold tier at absent
    unfold reviewedAt
    cases entry : progress.get? c.id.key with
    | none => rfl
    | some s =>
      rw [entry] at absent
      dsimp only at absent
      split at absent <;> contradiction
  rw [older, zero a first, zero b second]
  rfl

theorem unseen_eq (lastActed : Json) (cards : List Card) :
    unseen cards progress = ranked progress (remaining progress lastActed cards) .unseen := by
  rw [ranked_unseen, remaining, List.filter_filter, unseen]
  apply List.filter_congr
  intro c _
  unfold tier Assoc.has
  cases progress.get? c.id.key with
  | none => rfl
  | some s => cases held : s.mastered <;> simp [held]

theorem seenTier_eq (lastActed : Json) (cards : List Card) (mastered : Bool) :
    seenTier cards progress lastActed mastered =
      ((remaining progress lastActed cards).filter
        fun c => tier progress c = if mastered then .mastered else .needsWork).map
          fun c => (c, reviewedAt progress c) := by
  induction cards with
  | nil => rfl
  | cons c rest ih =>
    simp only [seenTier, remaining, List.filterMap_cons, List.filter_cons, Assoc.has] at ih ⊢
    cases entry : progress.get? c.id.key with
    | none => cases mastered <;> simp [ih, tier, entry]
    | some s =>
      by_cases last : c.id.key = lastActed.key
      · simp [ih, last]
      · cases mastered <;> cases held : s.mastered <;> simp [ih, last, tier, reviewedAt, entry, held]

theorem byAge_seenTier (lastActed : Json) (cards : List Card) (mastered : Bool) :
    byAge (seenTier cards progress lastActed mastered) =
      ranked progress (remaining progress lastActed cards) (if mastered then .mastered else .needsWork) := by
  rw [seenTier_eq, byAge, ranked]
  have kept := List.map_mergeSort (f := fun c : Card => (c, reviewedAt progress c)) (r := older progress)
    (s := fun a b : Card × Int => decide (a.2 ≤ b.2))
    (l := (remaining progress lastActed cards).filter
      fun c => tier progress c = if mastered then .mastered else .needsWork) fun a _ b _ => rfl
  rw [← kept, List.map_map]
  exact List.map_id _

theorem build_eq (lastActed : Json) (cards : List Card) :
    build cards progress lastActed = Tier.all.flatMap (ranked progress (remaining progress lastActed cards)) := by
  rw [build, unseen_eq progress lastActed, byAge_seenTier, byAge_seenTier]
  simp [Tier.all]

theorem mem_ranked {cards : List Card} {t : Tier} {c : Card} :
    c ∈ ranked progress cards t ↔ c ∈ cards ∧ tier progress c = t := by
  rw [ranked, List.mem_mergeSort, List.mem_filter, decide_eq_true_eq]

theorem tiers_perm (cards : List Card) : (Tier.all.flatMap (ranked progress cards)).Perm cards := by
  have own (t : Tier) : (ranked progress cards t).Perm (cards.filter fun c => tier progress c = t) :=
    List.mergeSort_perm ..
  have seen : (cards.filter fun c => !decide (tier progress c = .unseen)).Perm
      (ranked progress cards .needsWork ++ ranked progress cards .mastered) := by
    have halves := List.filter_append_perm (fun c => decide (tier progress c = .needsWork))
      (cards.filter fun c => !decide (tier progress c = .unseen))
    rw [List.filter_filter, List.filter_filter] at halves
    have first : (cards.filter fun c => decide (tier progress c = .needsWork) && !decide (tier progress c = .unseen)) =
        cards.filter fun c => tier progress c = .needsWork := by
      apply List.filter_congr
      intro c _
      cases tier progress c <;> rfl
    have second : (cards.filter fun c => !decide (tier progress c = .needsWork) && !decide (tier progress c = .unseen)) =
        cards.filter fun c => tier progress c = .mastered := by
      apply List.filter_congr
      intro c _
      cases tier progress c <;> rfl
    rw [first, second] at halves
    exact halves.symm.trans ((own .needsWork).append (own .mastered)).symm
  calc
    _ = ranked progress cards .unseen ++ (ranked progress cards .needsWork ++ ranked progress cards .mastered) := by
      simp [Tier.all]
    List.Perm _ ((cards.filter fun c => tier progress c = .unseen) ++
        cards.filter fun c => !decide (tier progress c = .unseen)) := (own .unseen).append seen.symm
    List.Perm _ cards := List.filter_append_perm ..

theorem tiers_sorted (cards : List Card) : (Tier.all.flatMap (ranked progress cards)).Pairwise (NoLater progress) := by
  apply List.pairwise_flatMap.2
  constructor
  · intro t _
    have sorted := List.pairwise_mergeSort (older_trans progress) (older_total progress)
      (cards.filter fun c => tier progress c = t)
    apply sorted.imp_of_mem
    intro a b first second before
    have left := ((mem_ranked progress).1 first).2
    have right := ((mem_ranked progress).1 second).2
    exact .inr ⟨left.trans right.symm, of_decide_eq_true before⟩
  · have rising : Tier.all.Pairwise fun t u => t.place < u.place := by decide
    apply rising.imp
    intro t u before a first b second
    rw [← ((mem_ranked progress).1 first).2, ← ((mem_ranked progress).1 second).2] at before
    exact .inl before

theorem tiers_stable (cards : List Card) (t : Tier) (time : Int) :
    (Tier.all.flatMap (ranked progress cards)).filter (fun c => tier progress c = t ∧ reviewedAt progress c = time) =
      cards.filter fun c => tier progress c = t ∧ reviewedAt progress c = time := by
  have own (u : Tier) :
      (ranked progress cards u).filter (fun c => tier progress c = t ∧ reviewedAt progress c = time) =
        if u = t then cards.filter fun c => tier progress c = t ∧ reviewedAt progress c = time else [] := by
    by_cases same : u = t
    · subst same
      rw [if_pos rfl, ranked, filter_mergeSort (older_trans progress) (older_total progress), List.filter_filter]
      · apply List.filter_congr
        intro c _
        by_cases inside : tier progress c = u <;> simp [inside]
      · intro a b first second
        rw [older, (of_decide_eq_true first).2, (of_decide_eq_true second).2]
        exact decide_eq_true (Int.le_refl time)
    · rw [if_neg same]
      apply List.filter_eq_nil_iff.2
      intro c member
      have other := ((mem_ranked progress).1 member).2
      simp [other, same]
  rw [List.filter_flatMap]
  simp only [own]
  cases t <;> simp [Tier.all]

/-- Wherever the cards can be looked up there is a queue, in this order. -/
theorem built_orders (lastActed : Json) {cards : List Card} (lookup : ∀ c ∈ cards, c.id.isKey = true) :
    ∃ queue, built cards progress lastActed = .ok queue ∧ Orders progress lastActed cards queue := by
  have found : isOpen cards = true := List.all_eq_true.2 lookup
  refine ⟨build cards progress lastActed, by rw [built, if_pos found], ?_⟩
  rw [build_eq]
  exact {
    perm := tiers_perm ..
    sorted := tiers_sorted ..
    stable := fun t time => tiers_stable progress _ t time }

end Order

/-- The marks of mastery stand as they are, also against the counts. -/
def tiedProgress : Progress :=
  [(.text "a", ⟨.str "a", 5, false, 7⟩), (.text "b", ⟨.str "b", 3, true, 2⟩),
    (.text "d", ⟨.str "d", 1, false, 1⟩), (.text "e", ⟨.str "e", 0, true, 2⟩)]

def tiedCards : List Card := ["b", "a", "d", "c", "e", "a"].map Card.ofId

/-- The mastered cards come last, and those reviewed at the same time keep their order. -/
theorem tied_cards_in_order :
    (∀ c ∈ tiedCards, c.id.isKey = true) ∧
      (∃ queue, built tiedCards tiedProgress (.str "d") = .ok queue ∧
        Orders tiedProgress (.str "d") tiedCards queue) ∧
      (build tiedCards tiedProgress (.str "d")).map (·.id.text?) =
        [some "c", some "a", some "a", some "b", some "e"] := by
  have lookup : ∀ c ∈ tiedCards, c.id.isKey = true := List.all_eq_true.1 (by decide)
  exact ⟨lookup, built_orders tiedProgress (.str "d") lookup, by cbv⟩

end CodeDeck.Queue
