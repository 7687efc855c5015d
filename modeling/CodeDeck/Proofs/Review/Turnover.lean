import CodeDeck.Proofs.Review.Current
import CodeDeck.Store.Memory

/-! A deck with cards always shows one of them, and a card that has been seen does not come twice in a row
while there is another one: it is left out of the queue for one turn, unless that leaves nothing. -/

namespace CodeDeck

namespace Deck

variable {d : Deck} {c e : Card}

theorem queue_ne_nil (ids : ∀ c ∈ d.cards, c.id.key ≠ .null) (nonempty : d.cards ≠ []) : d.queue ≠ [] := by
  obtain ⟨c, member⟩ := List.exists_mem_of_ne_nil d.cards nonempty
  unfold queue
  split
  · intro empty
    have inside : c ∈ Queue.build d.cards d.progress .null :=
      (Queue.mem_build ..).2 ⟨member, .inr (ids c member)⟩
    rw [empty] at inside
    exact List.not_mem_nil inside
  · next filled => exact filled

theorem exists_current (ids : ∀ c ∈ d.cards, c.id.key ≠ .null) (nonempty : d.cards ≠ []) :
    ∃ c ∈ d.cards, d.current = some c := by
  have filled := queue_ne_nil ids nonempty
  have shown : d.current = some (d.queue.head filled) := List.head?_eq_some_head filled
  exact ⟨_, mem_cards_of_current shown, shown⟩

/-- Does the deck leave the card out for one turn, as it has been seen and was acted on last? -/
structure Rests (d : Deck) (c : Card) : Prop where
  last : d.lastActed = c.id
  seen : d.progress.get? c.id.key ≠ none

theorem Rests.exists_other (rests : d.Rests c) (member : e ∈ d.cards) (other : e.id.key ≠ c.id.key) :
    ∃ f, d.current = some f ∧ f.id.key ≠ c.id.key := by
  have queued : e ∈ Queue.build d.cards d.progress d.lastActed := by
    apply (Queue.mem_build ..).2
    rw [rests.last]
    exact ⟨member, .inr other⟩
  obtain ⟨f, later, queue⟩ := List.exists_cons_of_ne_nil (List.ne_nil_of_mem queued)
  have first : f ∈ Queue.build d.cards d.progress d.lastActed := queue ▸ List.mem_cons_self
  refine ⟨f, queue_of_head? (queue ▸ rfl), ?_⟩
  intro same
  obtain ⟨_, free⟩ := (Queue.mem_build ..).1 first
  rw [rests.last, same] at free
  exact free.elim rests.seen fun different => different rfl

end Deck

namespace Session

variable {σ : Type} [KeyValueStore σ] {s : Session σ} {c : Card}

/-- A review puts its card to rest, unless the card is skipped unseen. -/
theorem rests_after_review (shown : s.deck.current = some c) {action : Action}
    (noted : action ≠ .skip ∨ s.deck.progress.get? c.id.key ≠ none) :
    (s.step (.review action)).2.deck.Rests c := by
  by_cases skips : action = .skip
  · have seen := noted.resolve_left (fun acts => acts skips)
    rw [step, skips, review_skip shown]
    exact ⟨rfl, seen⟩
  · rw [step, review_recorded shown skips]
    refine ⟨rfl, ?_⟩
    have found : (s.recorded action c).deck.progress.get? c.id.key = some _ := Assoc.get?_set_self ..
    rw [found]
    exact Option.some_ne_none _

/-- In each session over a deck with cards, whatever the store holds, the queue is never empty and every review
returns a card of the deck. Behind a review, but for the skip of a card that has not been seen, another card is
shown if there is one. -/
theorem run_turns_over {cards : List Card} (ids : ∀ c ∈ cards, c.id.key ≠ .null) (nonempty : cards ≠ [])
    (key : String) (store : σ) (clock : Nat → Int) (events : List Event) :
    let past := (start cards key store clock).run events
    past.deck.queue ≠ [] ∧
    ∀ action, ∃ c ∈ cards, (past.step (.review action)).1 = some c ∧
      (action ≠ .skip ∨ past.deck.progress.get? c.id.key ≠ none →
        (∃ e ∈ cards, e.id.key ≠ c.id.key) →
        ∃ f, (past.step (.review action)).2.deck.current = some f ∧ f.id.key ≠ c.id.key) := by
  intro past
  have same : past.deck.cards = cards := run_cards _ events
  have ids' : ∀ c ∈ past.deck.cards, c.id.key ≠ .null := same ▸ ids
  have nonempty' : past.deck.cards ≠ [] := same ▸ nonempty
  refine ⟨Deck.queue_ne_nil ids' nonempty', ?_⟩
  intro action
  obtain ⟨c, member, shown⟩ := Deck.exists_current ids' nonempty'
  refine ⟨c, same ▸ member, acted_of_current shown action, ?_⟩
  rintro noted ⟨e, inside, other⟩
  have cards_after : (past.step (.review action)).2.deck.cards = cards :=
    (past.steps_step _).cards.trans same
  apply (rests_after_review shown noted).exists_other _ other
  rw [cards_after]
  exact inside

def twinCards : List Card := [Card.ofId "a", Card.ofId "a", Card.ofId "b"]

def strangerStore : Memory := ⟨[("progress:o/r", .obj [("x", ReviewState.toJson ⟨.str "x", 3, true, 5⟩)])]⟩

/-- Both twins rest once one of them has been confirmed. -/
theorem twins_turn_over :
    let past := (start twinCards "progress:o/r" strangerStore fun n => n).run
      [.review .skip, .review .confirm]
    (∀ c ∈ twinCards, c.id.key ≠ .null) ∧ twinCards ≠ [] ∧
    past.deck.queue ≠ [] ∧
    ∀ action, ∃ c ∈ twinCards, (past.step (.review action)).1 = some c ∧
      (action ≠ .skip ∨ past.deck.progress.get? c.id.key ≠ none →
        (∃ e ∈ twinCards, e.id.key ≠ c.id.key) →
        ∃ f, (past.step (.review action)).2.deck.current = some f ∧ f.id.key ≠ c.id.key) := by
  have ids : ∀ c ∈ twinCards, c.id.key ≠ .null := by decide
  have nonempty : twinCards ≠ [] := List.cons_ne_nil _ _
  exact ⟨ids, nonempty, run_turns_over ids nonempty "progress:o/r" strangerStore (fun n => n)
    [.review .skip, .review .confirm]⟩

end Session

end CodeDeck
