import CodeDeck.Fault

/-!
Calendar dates from year 1 on, in the Gregorian calendar extended to all years, and their text of
the form `YYYY-MM-DD`.
-/

namespace CodeDeck

structure Date where
  year : Nat
  month : Nat
  day : Nat
  deriving DecidableEq, Repr

namespace Date

def isLeap (year : Nat) : Bool := year % 4 == 0 && (year % 100 != 0 || year % 400 == 0)

def monthLength (year month : Nat) : Nat :=
  if month = 2 then if isLeap year then 29 else 28
  else if month = 4 ∨ month = 6 ∨ month = 9 ∨ month = 11 then 30
  else 31

def Valid (d : Date) : Prop :=
  1 ≤ d.year ∧ d.year ≤ 9999 ∧ 1 ≤ d.month ∧ d.month ≤ 12 ∧ 1 ≤ d.day ∧
    d.day ≤ monthLength d.year d.month

instance (d : Date) : Decidable d.Valid := by unfold Valid; infer_instance

/-- The day before; the calendar has no day before the first of January of year 1. -/
def previous? (d : Date) : Option Date :=
  if 1 < d.day then some { d with day := d.day - 1 }
  else if 1 < d.month then some ⟨d.year, d.month - 1, monthLength d.year (d.month - 1)⟩
  else if 1 < d.year then some ⟨d.year - 1, 12, 31⟩
  else none

def next (d : Date) : Date :=
  if d.day < monthLength d.year d.month then { d with day := d.day + 1 }
  else if d.month < 12 then ⟨d.year, d.month + 1, 1⟩
  else ⟨d.year + 1, 1, 1⟩

def before? : Nat → Date → Option Date
  | 0, d => some d
  | n + 1, d => d.previous?.bind (before? n)

/-- The `n` days that end at `d`, in front of `later`. -/
def daysThrough? : Nat → Date → (later : List Date) → Option (List Date)
  | 0, _, later => some later
  | 1, d, later => some (d :: later)
  | n + 2, d, later => d.previous?.bind fun p => daysThrough? (n + 1) p (d :: later)

def padded (width n : Nat) : String :=
  let digits := toString n
  String.ofList (List.replicate (width - digits.length) '0') ++ digits

def text (d : Date) : String :=
  padded 4 d.year ++ "-" ++ padded 2 d.month ++ "-" ++ padded 2 d.day

def digits? (s : List Char) : Option Nat :=
  if s.all Char.isDigit then some (s.foldl (fun n c => 10 * n + (c.toNat - 48)) 0) else none

def ofText? (s : String) : Option Date :=
  match s.toList with
  | [a, b, c, d, '-', e, f, '-', g, h] => do
    let year ← digits? [a, b, c, d]
    let month ← digits? [e, f]
    let day ← digits? [g, h]
    let date : Date := ⟨year, month, day⟩
    if date.Valid then some date else none
  | _ => none

def ofText (s : String) : Except Fault Date :=
  match ofText? s with
  | some d => .ok d
  | none => .error (.malformedDate s)

end Date

/-- A point in time: milliseconds since 1970, and the date where it is read. -/
structure Moment where
  now : Int
  today : Date
  deriving DecidableEq, Repr

end CodeDeck
