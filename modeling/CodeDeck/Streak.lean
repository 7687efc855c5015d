import CodeDeck.Calendar
import CodeDeck.Json.Count
import CodeDeck.Json.Contents
import CodeDeck.Store.Basic

/-!
The daily streak and the totals over all repositories. A day counts as active with its first
confirmation or rejection; a streak that was extended neither today nor yesterday reads as zero. A
field is kept as it was stored; one of the wrong type is a fault only where it is needed.
-/

namespace CodeDeck

/-- Dates stand as their text; the last active date is empty at first. -/
structure Streak where
  current : Json := .int 0
  longest : Json := .int 0
  lastActiveDate : Json := .str ""
  activeDays : Json := .arr []
  totalSwipes : Json := .int 0
  totalMastered : Json := .int 0
  totalRepos : Json := .int 0
  deriving Repr

namespace Streak

def daysKept : Nat := 60

def toJson (s : Streak) : Json :=
  .obj [("current", s.current), ("longest", s.longest), ("last_active_date", s.lastActiveDate),
    ("active_days", s.activeDays), ("total_swipes", s.totalSwipes),
    ("total_mastered", s.totalMastered), ("total_repos", s.totalRepos)]

def ofJson (v : Json) : Except Fault Streak :=
  match v with
  | .obj fields =>
    let fieldOr (name : String) (first : Json) : Json := (Assoc.get? name fields).getD first
    .ok
      { current := fieldOr "current" (.int 0)
        longest := fieldOr "longest" (.int 0)
        lastActiveDate := fieldOr "last_active_date" (.str "")
        activeDays := fieldOr "active_days" (.arr [])
        totalSwipes := fieldOr "total_swipes" (.int 0)
        totalMastered := fieldOr "total_mastered" (.int 0)
        totalRepos := fieldOr "total_repos" (.int 0) }
  | v => .error (.noMember v.kind "items")

def daysAgo (today : Date) (n : Nat) : Except Fault Date :=
  match today.before? n with
  | some d => .ok d
  | none => .error .dateOutOfRange

def endsOn (s : Streak) (d : Date) : Bool := s.lastActiveDate.same (.str d.text)

/-- The streak as it reads on a day: broken unless extended on that day or the day before. -/
def onDay (s : Streak) (today : Date) : Except Fault Streak := do
  let yesterday ← daysAgo today 1
  if s.endsOn today || s.endsOn yesterday then return s
  else return { s with current := .int 0 }

def read (stored : Json) (today : Date) : Except Fault Streak :=
  if stored.truthy then (ofJson stored).bind (·.onDay today) else .ok {}

/-- The texts of a list from `cutoff` on; a list of anything else cannot be cut off. -/
def daysFrom (cutoff : String) : List Json → Except Fault (List Json)
  | [] => .ok []
  | .str day :: rest =>
    (daysFrom cutoff rest).map fun later => if cutoff ≤ day then .str day :: later else later
  | _ :: _ => .error .wrongType

/-- Days of more than the kept number of days ago are dropped from the log. -/
def logDay (s : Streak) (today : Date) : Except Fault Json := do
  if ← s.activeDays.mentions today.text then return s.activeDays
  else
    let cutoff ← daysAgo today daysKept
    let days ← s.activeDays.asItems
    return .arr (← daysFrom cutoff.text (days ++ [.str today.text]))

def extend (s : Streak) (today : Date) : Except Fault Streak :=
  if s.endsOn today then .ok s
  else do
    let yesterday ← daysAgo today 1
    let current ← if s.endsOn yesterday then s.current.addOne else pure (.int 1)
    let days ← s.logDay today
    return { s with current := current, lastActiveDate := .str today.text, activeDays := days }

def swipe (s : Streak) (mastered : Bool) (today : Date) : Except Fault Streak := do
  let swipes ← s.totalSwipes.addOne
  let masteries ← if mastered then s.totalMastered.addOne else pure s.totalMastered
  let s ← { s with totalSwipes := swipes, totalMastered := masteries }.extend today
  return { s with longest := ← s.longest.larger s.current }

def addRepo (s : Streak) : Except Fault Streak :=
  s.totalRepos.addOne.map fun repos => { s with totalRepos := repos }

def activity (s : Streak) (today : Date) (days : Json) : Except Fault (List (Date × Bool)) := do
  let active ← s.activeDays.keyedContents
  let count ← days.asWhole
  match today.daysThrough? count.toNat [] with
  | some dates => return dates.map fun d => (d, active.any fun day => day.same (.str d.text))
  | none => throw .dateOutOfRange

variable {σ : Type} [KeyValueStore σ]

def stored (store : σ) (today : Date) : Except Fault Streak :=
  (KeyValueStore.read store Key.streak).bind fun v => read v today

def update (store : σ) (today : Date) (change : Streak → Except Fault Streak) :
    Except Fault Streak × σ :=
  match (stored store today).bind change with
  | .error e => (.error e, store)
  | .ok s =>
    match KeyValueStore.set store Key.streak s.toJson with
    | (.ok (), store) => (.ok s, store)
    | (.error e, store) => (.error e, store)

def recordSwipe (store : σ) (mastered : Bool) (today : Date) : Except Fault Streak × σ :=
  update store today (·.swipe mastered today)

def recordRepo (store : σ) (today : Date) : Except Fault Streak × σ :=
  update store today addRepo

end Streak

end CodeDeck
