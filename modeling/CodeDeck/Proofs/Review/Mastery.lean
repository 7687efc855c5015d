import Mathlib.Data.List.Perm.Subperm
import CodeDeck.Proofs.Review.Step
import CodeDeck.Review.Present
import CodeDeck.Store.Memory

/-! How far the count of mastered entries speaks for the cards of a deck. The count runs over all
entries, so that those of another set of cards under the same key are told as if they were the deck's:
the deck tells its own mastery exactly as long as it holds no mastered entry of a stranger. -/

namespace CodeDeck

namespace Deck

def holdsMastered (d : Deck) (c : Card) : Bool :=
  (d.progress.get? c.id.key).any ReviewState.mastered

def ownMastered (d : Deck) : Nat := d.cards.countP d.holdsMastered

/-- Every mastered entry belongs to a card of the deck. -/
def NoStrangers (d : Deck) : Prop :=
  ∀ key s, d.progress.get? key = some s → s.mastered = true → ∃ c ∈ d.cards, c.id.key = key

/-- What the deck tells about mastery is true of its own cards. -/
structure TellsOwn (d : Deck) : Prop where
  counts : d.mastered = d.ownMastered
  completes : d.allMastered = true ↔ d.cards ≠ [] ∧ ∀ c ∈ d.cards, d.holdsMastered c = true
  never_early : Present.progress d = "All " ++ toString d.total ++ " cards mastered." →
    ∀ c ∈ d.cards, d.holdsMastered c = true
  never_over : d.mastered ≤ d.total

def masteredKeys (d : Deck) : List Json.Key :=
  (d.progress.filter fun entry => entry.2.mastered).map (·.1)

def ownKeys (d : Deck) : List Json.Key := (d.cards.filter d.holdsMastered).map (·.id.key)

theorem length_masteredKeys (d : Deck) : d.masteredKeys.length = d.mastered := by
  unfold masteredKeys mastered Progress.masteredCount Assoc.values
  rw [List.length_map, List.countP_map, ← List.countP_eq_length_filter]
  rfl

theorem length_ownKeys (d : Deck) : d.ownKeys.length = d.ownMastered := by
  unfold ownKeys ownMastered
  rw [List.length_map, ← List.countP_eq_length_filter]

theorem mem_masteredKeys {d : Deck} (distinct : d.progress.Distinct) (key : Json.Key) :
    key ∈ d.masteredKeys ↔ ∃ s, d.progress.get? key = some s ∧ s.mastered = true := by
  unfold masteredKeys
  rw [List.mem_map]
  constructor
  · rintro ⟨⟨name, s⟩, member, rfl⟩
    obtain ⟨stored, held⟩ := List.mem_filter.1 member
    exact ⟨s, Assoc.get?_of_mem distinct stored, held⟩
  · rintro ⟨s, found, held⟩
    exact ⟨(key, s), List.mem_filter.2 ⟨Assoc.mem_of_get? found, held⟩, rfl⟩

theorem mem_ownKeys (d : Deck) (key : Json.Key) :
    key ∈ d.ownKeys ↔ ∃ c ∈ d.cards, c.id.key = key ∧
      ∃ s, d.progress.get? key = some s ∧ s.mastered = true := by
  unfold ownKeys
  rw [List.mem_map]
  constructor
  · rintro ⟨c, member, rfl⟩
    obtain ⟨inside, held⟩ := List.mem_filter.1 member
    exact ⟨c, inside, rfl, (Option.any_eq_true ..).1 held⟩
  · rintro ⟨c, inside, rfl, held⟩
    exact ⟨c, List.mem_filter.2 ⟨inside, (Option.any_eq_true ..).2 held⟩, rfl⟩

theorem ownKeys_subset {d : Deck} (distinct : d.progress.Distinct) : d.ownKeys ⊆ d.masteredKeys := by
  intro key own
  obtain ⟨_, _, _, held⟩ := (mem_ownKeys d key).1 own
  exact (mem_masteredKeys distinct key).2 held

theorem masteredKeys_subset_iff {d : Deck} (distinct : d.progress.Distinct) :
    d.masteredKeys ⊆ d.ownKeys ↔ d.NoStrangers := by
  constructor
  · intro included key s found held
    have own := included ((mem_masteredKeys distinct key).2 ⟨s, found, held⟩)
    obtain ⟨c, inside, same, _⟩ := (mem_ownKeys d key).1 own
    exact ⟨c, inside, same⟩
  · intro known key member
    obtain ⟨s, found, held⟩ := (mem_masteredKeys distinct key).1 member
    obtain ⟨c, inside, same⟩ := known key s found held
    exact (mem_ownKeys d key).2 ⟨c, inside, same, s, found, held⟩

/-- The count exceeds that of the deck's own cards by the mastered entries of strangers. -/
theorem mastered_eq_own_iff {d : Deck} (distinct : d.progress.Distinct)
    (ids : (d.cards.map (·.id.key)).Nodup) : d.mastered = d.ownMastered ↔ d.NoStrangers := by
  have nodup : d.ownKeys.Nodup := List.Nodup.sublist (List.filter_sublist.map _) ids
  have inside : d.ownKeys.Subperm d.masteredKeys := nodup.subperm (ownKeys_subset distinct)
  rw [← masteredKeys_subset_iff distinct, ← length_masteredKeys, ← length_ownKeys]
  constructor
  · intro same
    exact (inside.perm_of_length_le (Nat.le_of_eq same)).symm.subset
  · intro included
    have stored : d.masteredKeys.Nodup := List.Nodup.sublist (List.filter_sublist.map _) distinct
    exact Nat.le_antisymm (stored.subperm included).length_le inside.length_le

theorem own_complete_iff (d : Deck) :
    d.ownMastered = d.total ↔ ∀ c ∈ d.cards, d.holdsMastered c = true :=
  List.countP_eq_length

theorem allMastered_iff (d : Deck) : d.allMastered = true ↔ 0 < d.total ∧ d.total ≤ d.mastered := by
  simp [allMastered, Progress.allMastered, mastered]

end Deck

theorem Present.progress_eq_all_iff (d : Deck) :
    Present.progress d = "All " ++ toString d.total ++ " cards mastered." ↔
      d.allMastered = true := by
  unfold Present.progress
  constructor
  · intro told
    by_contra open_
    rw [if_neg open_] at told
    have letters := congrArg String.toList told
    have figures : ∀ c ∈ Nat.toDigits 10 d.mastered, c.isDigit = true := fun c member =>
      Nat.isDigit_of_mem_toDigits (by decide) (by decide) member
    cases shown : Nat.toDigits 10 d.mastered with
    | nil => exact Nat.toDigits_ne_nil shown
    | cons first rest =>
      have head : first = 'A' := by
        simp [String.toList_append, shown] at letters
        exact letters.1
      rw [shown] at figures
      have digit := figures first List.mem_cons_self
      rw [head] at digit
      exact absurd digit (by decide)
  · intro complete
    rw [if_pos complete]

namespace Deck

theorem tellsOwn_of_noStrangers {d : Deck} (distinct : d.progress.Distinct)
    (ids : (d.cards.map (·.id.key)).Nodup) (known : d.NoStrangers) : d.TellsOwn := by
  have counts := (mastered_eq_own_iff distinct ids).2 known
  have bounded : d.ownMastered ≤ d.total := List.countP_le_length
  have completes : d.allMastered = true ↔
      d.cards ≠ [] ∧ ∀ c ∈ d.cards, d.holdsMastered c = true := by
    rw [allMastered_iff, counts, ← own_complete_iff]
    constructor
    · rintro ⟨positive, covered⟩
      exact ⟨List.ne_nil_of_length_pos positive, Nat.le_antisymm bounded covered⟩
    · rintro ⟨nonempty, same⟩
      exact ⟨List.length_pos_iff.2 nonempty, Nat.le_of_eq same.symm⟩
  exact {
    counts := counts
    completes := completes
    never_early := fun told => (completes.1 ((Present.progress_eq_all_iff d).1 told)).2
    never_over := counts ▸ bounded }

end Deck

namespace Session

variable {σ : Type} [KeyValueStore σ]

/-- Only a restart rids the deck of strangers: a review touches the entry of a card of the deck. -/
theorem Steps.noStrangers_iff {s t : Session σ} {e : Event} {c : Option Card}
    (steps : Steps s e c t) (loads : e ≠ .reload) :
    t.deck.NoStrangers ↔ e = .restart ∨ s.deck.NoStrangers := by
  cases steps with
  | idle => simp
  | skip => simp [skipped, Deck.NoStrangers]
  | @act action card shown acts =>
    have inside := Deck.mem_cards_of_current shown
    simp only [reduceCtorEq, false_or]
    constructor
    · intro known key state found held
      by_cases same : key = card.id.key
      · exact ⟨card, inside, same.symm⟩
      · exact known key state ((Assoc.get?_set_of_ne same ..).trans found) held
    · intro known key state found held
      by_cases same : key = card.id.key
      · exact ⟨card, inside, same.symm⟩
      · exact known key state ((Assoc.get?_set_of_ne same ..).symm.trans found) held
  | clear => simp [Deck.clearMastered, Deck.NoStrangers]
  | restart => simp [Deck.restart, Deck.NoStrangers]
  | reload => exact absurd rfl loads

theorem run_noStrangers_iff (s : Session σ) (events : List Event) (loads : .reload ∉ events) :
    (s.run events).deck.NoStrangers ↔ .restart ∈ events ∨ s.deck.NoStrangers := by
  induction events generalizing s with
  | nil => simp [run]
  | cons e rest ih =>
    have different : e ≠ .reload := fun same => loads (same ▸ List.mem_cons_self)
    have later : Event.reload ∉ rest := fun member => loads (List.mem_cons_of_mem _ member)
    rw [run_cons, ih _ later, (s.steps_step e).noStrangers_iff different, or_left_comm,
      List.mem_cons, eq_comm (a := Event.restart), or_assoc]

/-- A deck tells its own mastery as long as it holds no mastered entry of a stranger. Such entries
come from the store alone, and stay until the deck is restarted. -/
theorem run_tellsOwn_iff (cards : List Card) (ids : (cards.map (·.id.key)).Nodup) (key : String)
    (store : σ) (clock : Nat → Int) (events : List Event) :
    (((start cards key store clock).run events).deck.TellsOwn ↔
      ((start cards key store clock).run events).deck.NoStrangers) ∧
    (.reload ∉ events → (((start cards key store clock).run events).deck.NoStrangers ↔
      .restart ∈ events ∨ (Deck.opened cards store key).NoStrangers)) := by
  have distinct := run_distinct (s := start cards key store clock) (Deck.distinct_opened ..) events
  have ids' : (((start cards key store clock).run events).deck.cards.map (·.id.key)).Nodup := by
    rw [run_cards]
    exact ids
  refine ⟨⟨?_, ?_⟩, fun loads => ?_⟩
  · intro told
    exact (Deck.mastered_eq_own_iff distinct ids').1 told.counts
  · intro known
    exact Deck.tellsOwn_of_noStrangers distinct ids' known
  · exact run_noStrangers_iff _ events loads

/-- A store that kept the progress of an earlier set of cards. -/
def staleStore : Memory :=
  ⟨[("progress:o/r", .obj [("gen-0-a", ReviewState.toJson ⟨.str "gen-0-a", 3, true, 5⟩)])]⟩

theorem tellsOwn_after_restart :
    ([Card.ofId "gen-0-b", Card.ofId "gen-1-c"].map (·.id.key)).Nodup ∧
    ((start [Card.ofId "gen-0-b", Card.ofId "gen-1-c"] "progress:o/r" staleStore fun n => n).run
      [.review .confirm, .restart, .review .reject]).deck.TellsOwn := by
  have ids : ([Card.ofId "gen-0-b", Card.ofId "gen-1-c"].map (·.id.key)).Nodup := by decide
  have told := run_tellsOwn_iff _ ids "progress:o/r" staleStore (fun n => n)
    [.review .confirm, .restart, .review .reject]
  exact ⟨ids, told.1.2 ((told.2 (by decide)).2 (.inl (by decide)))⟩

/-- One mastered entry of a stranger completes a deck whose only card was never seen. -/
theorem stale_entry_completes :
    (Deck.opened [Card.ofId "gen-0-b"] staleStore "progress:o/r").allMastered = true ∧
    Present.progress (Deck.opened [Card.ofId "gen-0-b"] staleStore "progress:o/r") =
      "All 1 cards mastered." ∧
    (Deck.opened [Card.ofId "gen-0-b"] staleStore "progress:o/r").ownMastered = 0 ∧
    ¬ (Deck.opened [Card.ofId "gen-0-b"] staleStore "progress:o/r").TellsOwn := by
  refine ⟨by decide, by decide, by decide, fun told => ?_⟩
  exact absurd told.counts (by decide)

end Session

end CodeDeck
