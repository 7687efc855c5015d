import CodeDeck.Json.Basic

/-!
What a value is looked up by, and equality of values. Numbers count by amount, so that one, true and
`1.0` are one key; lists and objects are no keys at all.
-/

namespace CodeDeck.Json

open CodeDeck.Number

inductive Key where
  | null
  | whole (n : Int)
  | real (x : Binary64)
  | text (s : String)
  /-- Of a list or an object. -/
  | unfit
  deriving DecidableEq, Repr

def key : Json → Key
  | null => .null
  | bool b => .whole (if b then 1 else 0)
  | int n => .whole n
  | real x =>
    match x.whole? with
    | some n => .whole n
    | none => .real x
  | str s => .text s
  | arr _ => .unfit
  | obj _ => .unfit

def isKey (v : Json) : Bool := v.key != .unfit

mutual

/-- Equality of values: single values by their keys, objects by name. The undefined number equals
nothing. -/
def same : Json → Json → Bool
  | arr as, arr bs => sameItems as bs
  | obj as, obj bs => as.length == bs.length && sameFields as bs
  | a, b => a.isKey && a.key != .real .nan && a.key == b.key

def sameItems : List Json → List Json → Bool
  | [], [] => true
  | a :: as, b :: bs => same a b && sameItems as bs
  | _, _ => false

def sameFields : List (String × Json) → List (String × Json) → Bool
  | [], _ => true
  | (name, a) :: as, bs =>
    (match Assoc.get? name bs with
    | some b => same a b
    | none => false) && sameFields as bs

end

@[simp]
theorem key_str (s : String) : (str s).key = .text s := rfl

@[simp]
theorem isKey_str (s : String) : (str s).isKey = true := rfl

end CodeDeck.Json
