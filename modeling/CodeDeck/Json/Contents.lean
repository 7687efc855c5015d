import CodeDeck.Json.Key
import CodeDeck.Json.Read
import CodeDeck.Text.Search

/-!
What a value holds. The contents of a list are its items, those of an object its names, and those of a
text its characters; single values have none.
-/

namespace CodeDeck.Json

open CodeDeck.Text

def contents : Json → Except Fault (List Json)
  | arr items => .ok items
  | obj fields => .ok (fields.map fun field => str field.1)
  | str s => .ok (s.toList.map fun c => str c.toString)
  | _ => .error .wrongType

def keyedContents (v : Json) : Except Fault (List Json) := do
  let found ← v.contents
  if found.all isKey then return found else throw .wrongType

/-- Does a value mention a name? An object by a field, a list by an item, a text by a part of it. -/
def mentions (name : String) : Json → Except Fault Bool
  | obj fields => .ok (Assoc.has name fields)
  | arr items => .ok (items.any fun item => item.same (str name))
  | str s => .ok (contains name.toList s.toList)
  | _ => .error .wrongType

end CodeDeck.Json
