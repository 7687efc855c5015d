import CodeDeck.Block
import CodeDeck.Pattern.Search
import CodeDeck.Text.Word

/-!
Building stones for the patterns of declarations: words, blanks and bracketed text.
-/

namespace CodeDeck.Extract

open CodeDeck.Text CodeDeck.Pattern

def blanks : Pattern := .run isBlank 0

def blanks1 : Pattern := .run isBlank 1

def name : Pattern := .run isWord 1

def indent : Pattern := .run (fun c => c == ' ' || c == '\t') 0

def isCapital (c : Char) : Bool := 'A' ≤ c && c ≤ 'Z'

def enclosed (opening closing : Char) (allowed : Char → Bool) : Pattern :=
  ofList [.text [opening], .run allowed 0, .text [closing]]

def except (c : Char) (d : Char) : Bool := d != c

def exceptInLine (c : Char) (d : Char) : Bool := d != c && d != '\n'

def modifiers (words : List String) : Pattern := .repeated (.both (anyWord words) blanks1)

/-- What an extractor knows of a file. -/
structure File where
  path : String
  source : List Char
  language : String

def File.block? (file : File) (name : List Char) (kind : BlockKind) (code : List Char)
    (doc : Option (List Char)) : Option Block :=
  Block.ofCode? name kind code file.path file.language doc

end CodeDeck.Extract
