import CodeDeck.Json.Key
import CodeDeck.Json.Read
import CodeDeck.Store.Basic

/-!
The repositories visited last, the latest first, each at most once.
-/

namespace CodeDeck.Recent

def capacity : Nat := 8

def ofStored (v : Json) : Json := if v.truthy then v else .arr []

def others (entry : Json) : List Json → Except Fault (List Json)
  | [] => .ok []
  | old :: rest => do
    let name ← old.askOr "full_name" .null
    let own ← entry.require "full_name"
    let kept ← others entry rest
    return if name.same own then kept else old :: kept

/-- The entries of a stored list. Only a list of objects can be filtered. -/
def entries : Json → Except Fault (List Json)
  | .arr items => .ok items
  | .obj [] => .ok []
  | .obj _ => .error (.noMember .str "get")
  | .str _ => .error (.noMember .str "get")
  | _ => .error .wrongType

def visited (now : Json) : (entry : Json) → Except Fault Json
  | .obj fields => .ok (.obj (Assoc.set "last_visited" now fields))
  | _ => .error .wrongType

/-- The list with an entry in front, in place of an older one for the same repository. -/
def push (stored entry now : Json) : Except Fault (List Json) := do
  let old ← others entry (← entries (ofStored stored))
  let latest ← visited now entry
  return (latest :: old).take capacity

variable {σ : Type} [KeyValueStore σ]

def stored (store : σ) : Except Fault Json := (KeyValueStore.read store Key.recent).map ofStored

def add (store : σ) (entry now : Json) : Except Fault (List Json) × σ :=
  match (KeyValueStore.read store Key.recent).bind fun v => push v entry now with
  | .error e => (.error e, store)
  | .ok updated =>
    match KeyValueStore.set store Key.recent (.arr updated) with
    | (.ok (), store) => (.ok updated, store)
    | (.error e, store) => (.error e, store)

end CodeDeck.Recent
