import CodeDeck.Proofs.Review.Step
import CodeDeck.Store.Memory

/-! A store that fails is not noticed in a session. When nothing could be read from it at the start, the session
shows the same as one over an empty store, whatever becomes of the later writes. -/

namespace CodeDeck

/-- What a session shows: the card acted on, and what its deck tells. -/
structure Sight where
  acted : Option Card
  queue : List Card
  current : Option Card
  upcoming : Option Card
  progress : Progress
  lastActed : Json
  justMastered : Option Card
  mastered : Nat
  allMastered : Bool

namespace Session

variable {σ τ : Type} [KeyValueStore σ] [KeyValueStore τ]

def sight {σ : Type} (s : Session σ) (acted : Option Card) : Sight :=
  { acted := acted
    queue := s.deck.queue
    current := s.deck.current
    upcoming := s.deck.upcoming
    progress := s.deck.progress
    lastActed := s.deck.lastActed
    justMastered := s.deck.justMastered
    mastered := s.deck.mastered
    allMastered := s.deck.allMastered }

def sights (s : Session σ) : List Event → List Sight
  | [] => []
  | e :: rest => (s.step e).2.sight (s.step e).1 :: (s.step e).2.sights rest

omit [KeyValueStore σ] [KeyValueStore τ] in
theorem Alike.sight {s : Session σ} {t : Session τ} (alike : Alike s t) (acted : Option Card) :
    s.sight acted = t.sight acted := by
  unfold Session.sight
  rw [alike.deck]

theorem Alike.acted {s : Session σ} {t : Session τ} (alike : Alike s t) (e : Event) :
    (s.step e).1 = (t.step e).1 := by
  cases e with
  | review action =>
    cases shown : s.deck.current with
    | none =>
      have done : t.deck.current = none := alike.deck ▸ shown
      rw [Session.step, Session.step, review_of_empty action shown, review_of_empty action done]
    | some c =>
      have shown' : t.deck.current = some c := alike.deck ▸ shown
      rw [acted_of_current shown, acted_of_current shown']
  | clearMastered => rfl
  | restart => rfl
  | reload => rfl

theorem Alike.sights {s : Session σ} {t : Session τ} (alike : Alike s t) {events : List Event}
    (loads : .reload ∉ events) : s.sights events = t.sights events := by
  induction events generalizing s t with
  | nil => rfl
  | cons e rest ih =>
    have later : Event.reload ∉ rest := fun member => loads (List.mem_cons_of_mem _ member)
    have next : Alike (s.step e).2 (t.step e).2 := by
      apply alike.step
      intro reloads
      exact absurd (reloads ▸ List.mem_cons_self) loads
    rw [Session.sights, Session.sights, alike.acted e, next.sight, ih next later]

/-- Nothing can be read under the key: there is no value, or the store fails. -/
def Silent (store : σ) (key : String) : Prop :=
  KeyValueStore.read store key = .ok .null ∨ ∃ fault, KeyValueStore.read store key = .error fault

theorem progress_opened_of_silent (cards : List Card) {store : σ} {key : String}
    (silent : Silent store key) : (Deck.opened cards store key).progress = [] := by
  rcases silent with absent | ⟨fault, failed⟩
  · simp [Deck.opened, Deck.load, absent, Except.bind, Progress.ofJson, Json.truthy]
  · simp [Deck.opened, Deck.load, failed, Except.bind]

/-- A session over a store from which nothing could be read shows the same as one over an empty store, after
every event but a reload, whichever writes and deletions fail. -/
theorem sights_of_silent (cards : List Card) (key : String) {store : σ} (silent : Silent store key)
    (clock : Nat → Int) {events : List Event} (loads : .reload ∉ events) :
    (start cards key store clock).sights events =
      (start cards key (⟨[]⟩ : Memory) clock).sights events := by
  have empty : Silent (⟨[]⟩ : Memory) key := .inl rfl
  have alike : Alike (start cards key store clock) (start cards key (⟨[]⟩ : Memory) clock) := by
    refine ⟨?_, rfl, rfl⟩
    show Deck.opened cards store key = Deck.opened cards (⟨[]⟩ : Memory) key
    have fresh := progress_opened_of_silent cards silent
    have fresh' := progress_opened_of_silent cards empty
    unfold Deck.opened at fresh fresh' ⊢
    simp only at fresh fresh' ⊢
    rw [fresh, fresh']
  exact alike.sights loads

def falteringStore : Unreliable :=
  ⟨⟨[("progress:o/r", .obj [("a", ReviewState.toJson ⟨.str "a", 3, true, 5⟩)])]⟩, 0, fun n => n % 2 = 0⟩

theorem faltering_store_unnoticed :
    let cards := [Card.ofId "a", Card.ofId "b"]
    let events : List Event :=
      [.review .confirm, .review .skip, .review .reject, .clearMastered, .restart, .review .confirm]
    Silent falteringStore "progress:o/r" ∧ .reload ∉ events ∧
    (start cards "progress:o/r" falteringStore fun n => n).sights events =
      (start cards "progress:o/r" (⟨[]⟩ : Memory) fun n => n).sights events := by
  intro cards events
  have silent : Silent falteringStore "progress:o/r" := .inr ⟨_, rfl⟩
  have loads : Event.reload ∉ events := by decide
  exact ⟨silent, loads, sights_of_silent cards "progress:o/r" silent (fun n => n) loads⟩

end Session

end CodeDeck
