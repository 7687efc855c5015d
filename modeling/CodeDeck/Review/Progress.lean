import CodeDeck.Json.Count
import CodeDeck.Json.Printer
import CodeDeck.Text.Lowercase

/-!
Review progress: for each card the number of consecutive confirmations and the time of the last
review. A card is mastered from three confirmations on. Cards are told apart by the keys of their ids.
-/

namespace CodeDeck

inductive Action where
  | confirm | reject | skip
  deriving DecidableEq, Repr

namespace Action

def name : Action → String
  | confirm => "confirm"
  | reject => "reject"
  | skip => "skip"

def ofName : String → Except Fault Action
  | "confirm" => .ok confirm
  | "reject" => .ok reject
  | "skip" => .ok skip
  | other => .error (.unknownAction (Text.quotedString other))

def ofJson : Json → Except Fault Action
  | .str name => ofName name
  | v => .error (.unknownAction v.displayInner)

end Action

/-- The id is kept as it was stored. Times are milliseconds since 1970. -/
structure ReviewState where
  cardId : Json
  timesConfirmed : Int := 0
  mastered : Bool := false
  lastReviewedAt : Int := 0

namespace ReviewState

def masteryThreshold : Int := 3

def unseen (cardId : Json) : ReviewState := { cardId := cardId }

def toJson (s : ReviewState) : Json :=
  .obj [("cardId", s.cardId), ("timesConfirmed", .int s.timesConfirmed),
    ("mastered", .bool s.mastered), ("lastReviewedAt", .int s.lastReviewedAt)]

/-- The stored mark of mastery is not looked at; it is set by the count. -/
def ofJson (v : Json) : Except Fault ReviewState := do
  let times ← (← v.askOr "timesConfirmed" (.int 0)).asNumber
  let cardId ← v.require "cardId"
  let reviewed ← (← v.askOr "lastReviewedAt" (.int 0)).asNumber
  return {
    cardId := cardId
    timesConfirmed := times
    mastered := masteryThreshold ≤ times
    lastReviewedAt := reviewed }

def Marked (s : ReviewState) : Prop := s.mastered = decide (masteryThreshold ≤ s.timesConfirmed)

theorem Marked.mastered_iff {s : ReviewState} (marked : s.Marked) : s.mastered = true ↔ 3 ≤ s.timesConfirmed := by
  rw [marked]
  exact decide_eq_true_iff

theorem eq_of_marked {s t : ReviewState} (marked : s.Marked) (marked' : t.Marked) (card : s.cardId = t.cardId)
    (times : s.timesConfirmed = t.timesConfirmed) (reviewed : s.lastReviewedAt = t.lastReviewedAt) : s = t := by
  obtain ⟨cardId, count, mastered, time⟩ := s
  obtain ⟨cardId', count', mastered', time'⟩ := t
  obtain rfl : cardId = cardId' := card
  obtain rfl : count = count' := times
  obtain rfl : time = time' := reviewed
  obtain rfl : mastered = mastered' := marked.trans marked'.symm
  rfl

theorem marked_unseen (cardId : Json) : (unseen cardId).Marked := rfl

theorem ofJson_toJson {s : ReviewState} (marked : s.Marked) : ofJson s.toJson = .ok s := by
  obtain ⟨cardId, times, mastered, reviewed⟩ := s
  obtain rfl : mastered = decide (masteryThreshold ≤ times) := marked
  rfl

def dots (s : Option ReviewState) : List Bool :=
  match s with
  | none => [false, false, false]
  | some s => [1 ≤ s.timesConfirmed, 2 ≤ s.timesConfirmed, 3 ≤ s.timesConfirmed]

end ReviewState

abbrev Progress := Assoc Json.Key ReviewState

namespace Progress

/-- The name under which an entry is stored: the text of its key, or else the id as JSON text. -/
def entryName (key : Json.Key) (s : ReviewState) : String :=
  match key with
  | .text name => name
  | _ => s.cardId.render

def toJson (p : Progress) : Json :=
  .obj (Assoc.ofList (p.map fun (key, s) => (entryName key s, s.toJson)))

def readEntries : List (String × Json) → Except Fault Progress
  | [] => .ok []
  | (name, v) :: rest => do
    let s ← ReviewState.ofJson v
    let others ← readEntries rest
    return (.text name, s) :: others

/-- A value that counts as absent holds no progress. -/
def ofJson (v : Json) : Except Fault Progress :=
  if v.truthy then
    match v with
    | .obj fields => (readEntries fields).map Assoc.ofList
    | v => .error (.noMember v.kind "items")
  else .ok []

def masteredCount (p : Progress) : Nat := p.values.countP ReviewState.mastered

def allMastered (p : Progress) (total : Nat) : Bool := 0 < total && total ≤ p.masteredCount

def covers (p : Progress) (total : Json) : Except Fault Bool := do
  if ← total.exceeds (.int 0) then return total.atMost p.masteredCount else return false

/-- A confirmation counts one up, a rejection starts anew, and skipping changes nothing. The second
component tells whether the card has just been mastered. -/
def apply (p : Progress) (action : Action) (cardId : Json) (now : Int) : Progress × Bool :=
  let before := (p.get? cardId.key).getD (.unseen cardId)
  match action with
  | .skip => (p, false)
  | .confirm =>
    let times := before.timesConfirmed + 1
    let mastered : Bool := ReviewState.masteryThreshold ≤ times
    (p.set cardId.key
      { before with timesConfirmed := times, mastered := mastered, lastReviewedAt := now },
      mastered && !before.mastered)
  | .reject =>
    (p.set cardId.key
      { before with timesConfirmed := 0, mastered := false, lastReviewedAt := now }, false)

def IsNamed (p : Progress) : Prop := ∀ entry ∈ p, ∃ name, entry.1 = .text name

def Marked (p : Progress) : Prop := ∀ s ∈ p.values, s.Marked

def stored (p : Progress) : List (String × Json) :=
  p.map fun (key, s) => (entryName key s, s.toJson)

/-- Like `apply`, but an id that cannot be looked up is a fault. -/
def applied (p : Progress) (action : Action) (cardId : Json) (now : Int) :
    Except Fault (Progress × Bool) :=
  if cardId.isKey then .ok (p.apply action cardId now) else .error .wrongType

theorem keys_eq_map_stored {p : Progress} (named : p.IsNamed) :
    p.keys = (Assoc.keys p.stored).map .text := by
  simp only [stored, Assoc.keys, List.map_map]
  refine List.map_congr_left fun entry member => ?_
  obtain ⟨name, text⟩ := named entry member
  simp [entryName, text]

theorem distinct_stored {p : Progress} (distinct : p.Distinct) (named : p.IsNamed) :
    Assoc.Distinct p.stored := by
  have names : ((Assoc.keys p.stored).map Json.Key.text).Nodup :=
    keys_eq_map_stored named ▸ distinct
  exact (List.pairwise_map.1 names).imp fun different same => different (congrArg _ same)

theorem readEntries_stored {p : Progress} (named : p.IsNamed) (marked : p.Marked) :
    readEntries p.stored = .ok p := by
  induction p with
  | nil => rfl
  | cons entry rest ih =>
    obtain ⟨key, s⟩ := entry
    obtain ⟨name, text⟩ := named (key, s) (by simp)
    obtain rfl : key = .text name := text
    have others := ih (fun e member => named e (List.mem_cons_of_mem _ member))
      fun s member => marked s (List.mem_cons_of_mem _ member)
    have first : ReviewState.ofJson s.toJson = .ok s :=
      ReviewState.ofJson_toJson (marked s List.mem_cons_self)
    simp only [stored] at others
    simp only [stored, List.map_cons, readEntries, first, others]
    rfl

theorem toJson_of_distinct {p : Progress} (distinct : p.Distinct) (named : p.IsNamed) :
    p.toJson = .obj p.stored :=
  congrArg Json.obj (Assoc.ofList_of_distinct (distinct_stored distinct named))

theorem ofJson_toJson {p : Progress} (distinct : p.Distinct) (named : p.IsNamed) (marked : p.Marked) :
    ofJson p.toJson = .ok p := by
  rw [toJson_of_distinct distinct named]
  cases p with
  | nil => rfl
  | cons entry rest =>
    have read := readEntries_stored named marked
    simp only [stored, List.map_cons] at read
    simp only [ofJson, stored, List.map_cons, Json.truthy, List.isEmpty_cons, Bool.not_false,
      if_true, read]
    exact congrArg Except.ok (Assoc.ofList_of_distinct distinct)

end Progress

end CodeDeck
