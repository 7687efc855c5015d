import CodeDeck.Review.Deck

/-!
A review session: a deck, its store and a clock. Every event leads from one session to the next.
-/

namespace CodeDeck

/-- The clock gives one reading after the other; `readings` of them have been taken. -/
structure Session (σ : Type) where
  deck : Deck
  store : σ
  clock : Nat → Int
  readings : Nat := 0

inductive Event where
  | review (action : Action)
  | clearMastered
  | restart
  | reload
  deriving DecidableEq, Repr

namespace Session

variable {σ : Type} [KeyValueStore σ]

def start (cards : List Card) (key : String) (store : σ) (clock : Nat → Int) : Session σ :=
  { deck := Deck.opened cards store key, store := store, clock := clock }

def review (s : Session σ) (action : Action) : Option Card × Session σ :=
  let (card, deck) := s.deck.review action (s.clock s.readings)
  if s.deck.records action then
    (card, { s with deck := deck, store := deck.saved s.store, readings := s.readings + 1 })
  else (card, { s with deck := deck })

def step (s : Session σ) : Event → Option Card × Session σ
  | .review action => s.review action
  | .clearMastered => (none, { s with deck := s.deck.clearMastered })
  | .restart => (none, { s with deck := s.deck.restart, store := s.deck.erased s.store })
  | .reload => (none, { s with deck := Deck.opened s.deck.cards s.store s.deck.key })

def run (s : Session σ) (events : List Event) : Session σ :=
  events.foldl (fun s e => (s.step e).2) s

end Session

end CodeDeck
