import CodeDeck.Fault
import CodeDeck.Number.Numeral

/-!
Reading JSON values as what they are meant to be, with the fault that a misfit causes.
-/

namespace CodeDeck.Json

open CodeDeck.Number

def require (name : String) : Json → Except Fault Json
  | obj fields =>
    match Assoc.get? name fields with
    | some v => .ok v
    | none => .error (.missingField name)
  | _ => .error .wrongType

def ask (name : String) : Json → Except Fault (Option Json)
  | obj fields => .ok (Assoc.get? name fields)
  | v => .error (.noMember v.kind "get")

def askOr (name : String) (v default : Json) : Except Fault Json :=
  (v.ask name).map (·.getD default)

/-- The object with the fields of `defaults`, each as it stands in the value if it is there. The value
may have no other fields. -/
def filled (defaults : List (String × Json)) : Json → Except Fault Json
  | obj fields =>
    if fields.all fun field => Assoc.has field.1 defaults then
      .ok (obj (defaults.map fun (name, default) => (name, (Assoc.get? name fields).getD default)))
    else .error .wrongType
  | _ => .error .wrongType

/-- A text, of which the named member is asked. -/
def textWith (member : String) : Json → Except Fault String
  | str s => .ok s
  | v => .error (.noMember v.kind member)

def asText : Json → Except Fault String
  | str s => .ok s
  | _ => .error .wrongType

def asWhole (v : Json) : Except Fault Int :=
  match v.whole? with
  | some n => .ok n
  | none => .error .wrongType

def asItems : Json → Except Fault (List Json)
  | arr items => .ok items
  | _ => .error .wrongType

/-- The whole number that a number or a numeral stands for; what is behind the point is dropped. -/
def asNumber : Json → Except Fault Int
  | int n => .ok n
  | bool b => .ok (if b then 1 else 0)
  | real (.infinite _) => .error .infiniteNumber
  | real x =>
    match x.truncate? with
    | some n => .ok n
    | none => .error .undefinedNumber
  | str s =>
    match readInt s.toList with
    | .ok n => .ok n
    | .error (.tooLong count) => .error (.tooManyDigits count)
    | .error .malformed => .error (.badNumeral s)
  | v => .error (.notNumeric v.kind)

/-- A bound on a number of items: null stands for no bound. -/
def asBound : Json → Except Fault (Option Int)
  | null => .ok none
  | v => (asWhole v).map some

end CodeDeck.Json
