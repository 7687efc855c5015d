import CodeDeck.Json.Read

/-!
Learning cards and their stored form. Only the difficulty is read as a number; the other fields are
kept as they were stored.
-/

namespace CodeDeck

structure Card where
  id : Json
  kind : Json
  title : Json
  filePath : Json
  code : Json
  language : Json
  explanation : Json
  difficulty : Json
  deriving Repr

namespace Card

def fields (c : Card) : List (String × Json) :=
  [("id", c.id), ("kind", c.kind), ("title", c.title), ("file_path", c.filePath),
    ("code", c.code), ("language", c.language), ("explanation", c.explanation),
    ("difficulty", c.difficulty)]

def toJson (c : Card) : Json := .obj c.fields

/-- All fields are required and read in this order; the difficulty may be a numeral. -/
def ofJson (v : Json) : Except Fault Card := do
  return {
    id := ← v.require "id"
    kind := ← v.require "kind"
    title := ← v.require "title"
    filePath := ← v.require "file_path"
    code := ← v.require "code"
    language := ← v.require "language"
    explanation := ← v.require "explanation"
    difficulty := .int (← (← v.require "difficulty").asNumber) }

/-- A card as it is handed in: absent fields are those of `defaults`, and nothing is converted. -/
def ofFields (defaults : Card) (v : Json) : Except Fault Card := do
  let v ← v.filled defaults.fields
  return {
    id := ← v.require "id"
    kind := ← v.require "kind"
    title := ← v.require "title"
    filePath := ← v.require "file_path"
    code := ← v.require "code"
    language := ← v.require "language"
    explanation := ← v.require "explanation"
    difficulty := ← v.require "difficulty" }

theorem ofJson_toJson {c : Card} {level : Int} (whole : c.difficulty = .int level) :
    ofJson c.toJson = .ok c := by
  obtain ⟨id, kind, title, filePath, code, language, explanation, difficulty⟩ := c
  obtain rfl : difficulty = .int level := whole
  rfl

end Card

end CodeDeck
