import CodeDeck.Json.Parser
import CodeDeck.Text.Encoding

/-!
JSON in a body of bytes. Its encoding shows in where zeros stand, because JSON text starts with ASCII
characters; a mark in front tells that it is UTF-8.
-/

namespace CodeDeck.Json

open CodeDeck.Text

def detectEncoding : (bytes : List Nat) → Encoding
  | 0 :: b :: _ :: _ :: _ => if b = 0 then .utf32 true else .utf16 true
  | _ :: 0 :: c :: d :: _ => if c = 0 ∧ d = 0 then .utf32 false else .utf16 false
  | [0, _] => .utf16 true
  | [_, 0] => .utf16 false
  | _ => .utf8

def bodyText (body : List Char) : Except Undecodable (List Char) :=
  match body with
  | [] => .ok []
  | c :: rest =>
    if c.toNat = 0xFEFF then .ok rest
    else
      match detectEncoding (Utf8.encode body) with
      | .utf8 => .ok body
      | wide => wide.decode (Utf8.encode body)

end CodeDeck.Json
