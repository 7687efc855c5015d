import CodeDeck.Proofs.Review.Current
import CodeDeck.Store.Memory

/-! A new deck is discovered card by card. As long as a card is unseen, the first such card of the deck is
shown, whatever the clock says and whichever cards have been skipped. -/

namespace CodeDeck

/-- How many of the actions are confirmations or rejections. -/
def Action.deeds (actions : List Action) : Nat := actions.countP (· ≠ .skip)

namespace Session

variable {σ : Type}

/-- Of the cards, which differ, the first `k` have been seen and no others. -/
structure SeenFirst (s : Session σ) (k : Nat) : Prop where
  distinct : (s.deck.cards.map (·.id.key)).Nodup
  seen_iff : ∀ i (inside : i < s.deck.cards.length),
    s.deck.progress.get? s.deck.cards[i].id.key ≠ none ↔ i < k

namespace SeenFirst

variable {s : Session σ} {k : Nat}

theorem shown (first : s.SeenFirst k) (left : k < s.deck.cards.length) :
    s.deck.current = some s.deck.cards[k] := by
  apply Deck.current_of_unseen left
  · have unseen := mt (first.seen_iff k left).1 (Nat.lt_irrefl k)
    exact Classical.not_not.1 unseen
  · intro j before
    exact (first.seen_iff j (Nat.lt_trans before left)).2 before

theorem key_ne (first : s.SeenFirst k) {i j : Nat} (inside : i < s.deck.cards.length)
    (inside' : j < s.deck.cards.length) (different : i ≠ j) :
    s.deck.cards[i].id.key ≠ s.deck.cards[j].id.key := by
  intro same
  have bound : i < (s.deck.cards.map (·.id.key)).length := by simpa using inside
  apply different
  apply (List.getElem?_inj bound first.distinct).1
  simp only [List.getElem?_map, List.getElem?_eq_getElem inside, List.getElem?_eq_getElem inside',
    Option.map_some, same]

theorem skipped (first : s.SeenFirst k) (c : Card) : (s.skipped c).SeenFirst k :=
  ⟨first.distinct, first.seen_iff⟩

variable [KeyValueStore σ]

theorem recorded (first : s.SeenFirst k) (left : k < s.deck.cards.length) (action : Action) :
    (s.recorded action s.deck.cards[k]).SeenFirst (k + 1) := by
  refine ⟨first.distinct, ?_⟩
  intro i inside
  change i < s.deck.cards.length at inside
  show (s.deck.progress.set s.deck.cards[k].id.key _).get? s.deck.cards[i].id.key ≠ none ↔ i < k + 1
  by_cases own : i = k
  · subst own
    rw [Assoc.get?_set_self]
    simp
  · rw [Assoc.get?_set_of_ne (first.key_ne inside left own), first.seen_iff i inside]
    omega

theorem step (first : s.SeenFirst k) (left : k < s.deck.cards.length) (action : Action) :
    (s.step (.review action)).1 = some s.deck.cards[k] ∧
      (s.step (.review action)).2.SeenFirst (k + Action.deeds [action]) := by
  have shown := first.shown left
  by_cases skips : action = .skip
  · subst skips
    rw [Session.step, review_skip shown]
    exact ⟨rfl, first.skipped _⟩
  · rw [Session.step, review_recorded shown skips]
    have counted : Action.deeds [action] = 1 := by simp [Action.deeds, skips]
    rw [counted]
    exact ⟨rfl, first.recorded left action⟩

theorem run (first : s.SeenFirst k) (actions : List Action)
    (left : k + Action.deeds actions < s.deck.cards.length) :
    (s.run (actions.map .review)).SeenFirst (k + Action.deeds actions) := by
  induction actions generalizing s k with
  | nil => exact first
  | cons action rest ih =>
    have counted : Action.deeds ([action] ++ rest) = Action.deeds [action] + Action.deeds rest :=
      List.countP_append
    rw [List.singleton_append] at counted
    rw [counted, ← Nat.add_assoc] at left ⊢
    obtain ⟨_, next⟩ := first.step (by omega) action
    have cards : (s.step (.review action)).2.deck.cards = s.deck.cards := (s.steps_step _).cards
    rw [List.map_cons, run_cons]
    apply ih next
    rw [cards]
    exact left

theorem start {cards : List Card} (distinct : (cards.map (·.id.key)).Nodup) (key : String) {store : σ}
    (empty : KeyValueStore.get? store key = .ok none) (clock : Nat → Int) :
    (start cards key store clock).SeenFirst 0 := by
  refine ⟨distinct, ?_⟩
  intro i inside
  have fresh : (Session.start cards key store clock).deck.progress = [] :=
    Deck.progress_opened_of_absent cards empty
  simp [fresh]

end SeenFirst

variable [KeyValueStore σ]

theorem run_append (s : Session σ) (events later : List Event) :
    s.run (events ++ later) = (s.run events).run later := List.foldl_append

theorem acted_after {cards : List Card} (distinct : (cards.map (·.id.key)).Nodup) (key : String) {store : σ}
    (empty : KeyValueStore.get? store key = .ok none) (clock : Nat → Int) (before : List Action)
    (left : Action.deeds before < cards.length) (action : Action) :
    (((start cards key store clock).run (before.map .review)).step (.review action)).1 =
      some cards[Action.deeds before] := by
  have cards_after := run_cards (start cards key store clock) (before.map .review)
  have seen := (SeenFirst.start distinct key empty clock).run before (by rw [Nat.zero_add]; exact left)
  rw [Nat.zero_add] at seen
  obtain ⟨acted, _⟩ := seen.step (by rw [cards_after]; exact left) action
  rw [acted]
  simp only [cards_after]
  rfl

/-- On a new deck the next review acts on the card whose place is the number of confirmations and rejections so
far. A skip shows that card too, and however many skips follow, it is the one that is acted on next. -/
theorem run_discovers {cards : List Card} (distinct : (cards.map (·.id.key)).Nodup) (key : String)
    {store : σ} (empty : KeyValueStore.get? store key = .ok none) (clock : Nat → Int)
    (before : List Action) (left : Action.deeds before < cards.length) :
    let past := (start cards key store clock).run (before.map .review)
    (∀ action, (past.step (.review action)).1 = some cards[Action.deeds before]) ∧
    ∀ (skips : Nat) (action : Action), action ≠ .skip →
      ((past.run (List.replicate (skips + 1) (.review .skip))).step (.review action)).1 =
        (past.step (.review .skip)).1 := by
  intro past
  refine ⟨acted_after distinct key empty clock before left, ?_⟩
  intro skips action _
  have same : Action.deeds (before ++ List.replicate (skips + 1) .skip) = Action.deeds before := by
    simp [Action.deeds, List.countP_append, List.countP_replicate]
  have later : past.run (List.replicate (skips + 1) (.review .skip)) =
      (start cards key store clock).run
        ((before ++ List.replicate (skips + 1) Action.skip).map .review) := by
    rw [List.map_append, run_append, List.map_replicate]
  calc
    _ = some cards[Action.deeds (before ++ List.replicate (skips + 1) .skip)] := by
      rw [later]
      exact acted_after distinct key empty clock _ (same ▸ left) action
    _ = some cards[Action.deeds before] := by simp only [same]
    _ = (past.step (.review .skip)).1 := (acted_after distinct key empty clock before left .skip).symm

/-- With a clock that runs backwards, the third card comes after a rejection, two skips and a confirmation. -/
theorem third_card_discovered :
    let cards := [Card.ofId "a", Card.ofId "b", Card.ofId "c"]
    let before : List Action := [.reject, .skip, .skip, .confirm]
    let past := (start cards "progress:o/r" (⟨[]⟩ : Memory) fun n => 9 - n).run (before.map .review)
    (cards.map (·.id.key)).Nodup ∧ KeyValueStore.get? (⟨[]⟩ : Memory) "progress:o/r" = .ok none ∧
    Action.deeds before < cards.length ∧
    (∀ action, (past.step (.review action)).1 = some (Card.ofId "c")) ∧
    ∀ (skips : Nat) (action : Action), action ≠ .skip →
      ((past.run (List.replicate (skips + 1) (.review .skip))).step (.review action)).1 =
        (past.step (.review .skip)).1 := by
  intro cards before past
  have distinct : (cards.map (·.id.key)).Nodup := by decide
  have empty : KeyValueStore.get? (⟨[]⟩ : Memory) "progress:o/r" = .ok none := rfl
  have left : Action.deeds before < cards.length := by decide
  exact ⟨distinct, empty, left, run_discovers distinct "progress:o/r" empty (fun n => 9 - n) before left⟩

end Session

end CodeDeck
