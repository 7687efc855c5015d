import CodeDeck.Card
import CodeDeck.Review.Progress

/-!
The review queue in three tiers: cards never seen, cards that need work, and mastered cards, the last
two with the longest not reviewed first.
-/

namespace CodeDeck.Queue

def seenTier (cards : List Card) (progress : Progress) (lastActed : Json) (mastered : Bool) :
    List (Card × Int) :=
  cards.filterMap fun c =>
    match progress.get? c.id.key with
    | some s =>
      if s.mastered = mastered ∧ c.id.key ≠ lastActed.key then some (c, s.lastReviewedAt) else none
    | none => none

def byAge (tier : List (Card × Int)) : List Card :=
  (tier.mergeSort fun a b => a.2 ≤ b.2).map (·.1)

def unseen (cards : List Card) (progress : Progress) : List Card :=
  cards.filter fun c => !progress.has c.id.key

/-- The card acted on last stays out of the seen tiers, so that it does not come straight back. -/
def build (cards : List Card) (progress : Progress) (lastActed : Json) : List Card :=
  unseen cards progress
    ++ byAge (seenTier cards progress lastActed false)
    ++ byAge (seenTier cards progress lastActed true)

/-- Can every card be looked up by its id? Else there is no queue. -/
def isOpen (cards : List Card) : Bool := cards.all fun c => c.id.isKey

def built (cards : List Card) (progress : Progress) (lastActed : Json) : Except Fault (List Card) :=
  if isOpen cards then .ok (build cards progress lastActed) else .error .wrongType

theorem build_empty_progress (cards : List Card) (lastActed : Json) :
    build cards [] lastActed = cards := by
  have none_seen (m : Bool) : seenTier cards [] lastActed m = [] := by
    simp [seenTier]
  simp [build, none_seen, byAge, unseen, Assoc.has]

end CodeDeck.Queue
