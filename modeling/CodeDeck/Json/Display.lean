import CodeDeck.Json.Basic
import CodeDeck.Number.Shortest
import CodeDeck.Text.Quoted

/-!
JSON values inside messages. A string on its own stands as it is; within an array or object it is
quoted, and items are separated by a comma and a space.
-/

namespace CodeDeck.Json

open CodeDeck.Text

def Kind.label : Kind → String
  | null => "NoneType"
  | bool => "bool"
  | int => "int"
  | real => "float"
  | str => "str"
  | arr => "list"
  | obj => "dict"

mutual

def displayInner : Json → String
  | null => "None"
  | bool true => "True"
  | bool false => "False"
  | int n => toString n
  | real x => x.text "inf" "nan"
  | str s => quotedString s
  | arr items => "[" ++ ", ".intercalate (displayItems items) ++ "]"
  | obj fields => "\x7b" ++ ", ".intercalate (displayFields fields) ++ "\x7d"

def displayItems : List Json → List String
  | [] => []
  | item :: rest => displayInner item :: displayItems rest

def displayFields : List (String × Json) → List String
  | [] => []
  | (name, value) :: rest =>
    (quotedString name ++ ": " ++ displayInner value) :: displayFields rest

end

def display : Json → String
  | str s => s
  | v => displayInner v

end CodeDeck.Json
