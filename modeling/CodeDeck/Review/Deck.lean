import CodeDeck.Review.Queue
import CodeDeck.Store.Basic

/-!
A deck: the cards of one repository under review. The queue follows from the progress; a store keeps
the progress, but a store that fails does not disturb the session.
-/

namespace CodeDeck

structure Deck where
  cards : List Card
  key : String
  progress : Progress
  lastActed : Json := .null
  justMastered : Option Card := none

namespace Deck

def hasQueue (d : Deck) : Bool := Queue.isOpen d.cards

/-- When the card acted on last is the only one left, it comes again. -/
def queue (d : Deck) : List Card :=
  match Queue.build d.cards d.progress d.lastActed with
  | [] => Queue.build d.cards d.progress .null
  | q => q

def current (d : Deck) : Option Card := d.queue.head?

def upcoming (d : Deck) : Option Card := d.queue[1]?

def total (d : Deck) : Nat := d.cards.length

def mastered (d : Deck) : Nat := d.progress.masteredCount

def allMastered (d : Deck) : Bool := d.progress.allMastered d.total

/-- Does the action change the progress, and so read the clock and write to the store? -/
def records (d : Deck) (action : Action) : Bool := action != .skip && d.current.isSome

def review (d : Deck) (action : Action) (now : Int) : Option Card × Deck :=
  match d.current with
  | none => (none, d)
  | some card =>
    let (progress, justMastered) := d.progress.apply action card.id now
    (some card,
      { d with
        progress := progress
        lastActed := card.id
        justMastered := if justMastered then some card else d.justMastered })

def clearMastered (d : Deck) : Deck := { d with justMastered := none }

def restart (d : Deck) : Deck :=
  { d with progress := [], lastActed := .null, justMastered := none }

variable {σ : Type} [KeyValueStore σ]

def load (store : σ) (key : String) : Except Fault Progress :=
  (KeyValueStore.read store key).bind Progress.ofJson

def opened (cards : List Card) (store : σ) (key : String) : Deck :=
  { cards := cards
    key := key
    progress := match load store key with
      | .ok progress => progress
      | .error _ => [] }

def saved (d : Deck) (store : σ) : σ := (KeyValueStore.set store d.key d.progress.toJson).2

def erased (d : Deck) (store : σ) : σ := (KeyValueStore.delete store d.key).2

end Deck

end CodeDeck
