import CodeDeck.Review.Session
import CodeDeck.Streak
import CodeDeck.Text.Blank

/-!
Cards, decks and reviews as text for a reader.
-/

namespace CodeDeck.Present

open CodeDeck.Text

def dots (state : Option ReviewState) : String :=
  String.ofList ((ReviewState.dots state).map fun on => if on then '●' else '○')

/-- Three levels have a name; lists and objects are no levels. -/
def difficultyLabel (level : Json) : Except Fault String :=
  match level.key with
  | .whole 1 => .ok "easy"
  | .whole 2 => .ok "medium"
  | .whole 3 => .ok "hard"
  | .unfit => .error .wrongType
  | _ => .ok level.display

def card (c : Card) (state : Option ReviewState) : Except Fault String :=
  (difficultyLabel c.difficulty).map fun label =>
    "--- [" ++ c.title.display ++ " [" ++ c.kind.display ++ "] | File: " ++ c.filePath.display
      ++ " | Difficulty: " ++ label ++ " | Progress: " ++ dots state ++ "] ---\n"
      ++ c.explanation.display ++ "\n\n\x60\x60\x60" ++ c.language.display ++ "\n"
      ++ c.code.display ++ "\n\x60\x60\x60"

def emptyQueue : String := "No cards in the queue."

def cardOrNone (c : Option Card) (state : Option ReviewState) : Except Fault String :=
  match c with
  | none => .ok emptyQueue
  | some c => card c state

def current (d : Deck) : Except Fault String :=
  if d.hasQueue then
    cardOrNone d.current (d.current.bind fun c => d.progress.get? c.id.key)
  else .error .wrongType

def progress (d : Deck) : String :=
  if d.allMastered then "All " ++ toString d.total ++ " cards mastered."
  else toString d.mastered ++ "/" ++ toString d.total ++ " cards mastered."

variable {σ : Type} [KeyValueStore σ]

/-- Reviews the current card and answers with the next one. A confirmation or rejection counts
toward the streak, and the news of mastery is told once. -/
def review (s : Session σ) (action : String) (today : Date) : Except Fault String × Session σ :=
  match Action.ofName (String.ofList (lower (trim action.toList))), s.deck.hasQueue with
  | .error e, _ => (.ok ("Error: " ++ e.message), s)
  | .ok _, false => (.error .wrongType, s)
  | .ok action, true =>
    match s.review action with
    | (none, s) => (.ok emptyQueue, s)
    | (some acted, s) =>
      let headline := action.name ++ ": " ++ acted.title.display
      let (news, s) :=
        if action = .skip then ([], s)
        else
          let mastered := s.deck.justMastered
          let store := (Streak.recordSwipe s.store mastered.isSome today).2
          let news := match mastered with
            | some c => ["Mastered " ++ c.title.display ++ "!"]
            | none => []
          (news, { s with store := store, deck := s.deck.clearMastered })
      let told := (current s.deck).map fun upcoming =>
        "\n\n".intercalate (headline :: news ++ [progress s.deck, upcoming])
      (told, s)

end CodeDeck.Present
