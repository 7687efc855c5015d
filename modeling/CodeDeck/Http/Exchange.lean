import CodeDeck.Fault
import CodeDeck.Json.Encoding

/-!
Clients, requests and replies. What a client makes of a reference is up to the client. What the service answers
is given by a table of replies by target; a target that is not in the table is not found.
-/

namespace CodeDeck.Http

structure Request where
  url : String
  accept : String
  authorization : Option String
  deriving DecidableEq, Repr

/-- A request, the target in it that the service replies by, and whether its address names a scheme. -/
structure Call where
  request : Request
  target : List Char
  typed : Bool
  deriving DecidableEq, Repr

/-- The call for a reference and the query that is put behind it, unless the client refuses it. -/
structure Client where
  call : (reference : List Char) → (query : Option (List Char)) → Except CodeDeck.Fault Call

/-- How a client is made, for an address and perhaps a token. -/
abbrev Connector := (address : String) → (token : Option String) → Except CodeDeck.Fault Client

inductive Reply where
  | lost (reason : String)
  | answered (status : Nat) (body : List Char)
  deriving DecidableEq, Repr

abbrev Routes := Assoc String Reply

/-- The value in a body. A body in which values are nested too deep is more than a fault of the
reply. -/
def readBody (body : List Char) : Except CodeDeck.Fault (Except Fault Json) :=
  match Json.bodyText body with
  | .error u => .ok (.error (.undecodable u))
  | .ok text =>
    match Json.parse text with
    | .ok v => .ok (.ok v)
    | .error m => if m.problem.isNesting then .error (.malformed m) else .ok (.error (.malformed m))

def Reply.read (call : Call) : Reply → Except CodeDeck.Fault (Except Fault Json)
  | lost reason => .ok (.error (.lost reason))
  | answered status body =>
    if !call.typed then .ok (.error (.untyped call.request.url))
    else if 200 ≤ status ∧ status < 300 then readBody body
    else .ok (.error (.status status call.request.url))

def Routes.reply (routes : Routes) (call : Call) : Reply :=
  (Assoc.get? (String.ofList call.target) routes).getD (.answered 404 [])

end CodeDeck.Http
