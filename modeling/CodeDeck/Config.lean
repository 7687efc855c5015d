import CodeDeck.Fetch.Selection
import CodeDeck.Json.Contents
import CodeDeck.Json.Parser

/-!
The configuration. Validation demands a `github` and a `database` section and looks at the settings
that have to be addresses, texts or positive numbers; where a section is no object, only a list or a
text can tell whether it mentions a setting.
-/

namespace CodeDeck.Config

open CodeDeck.Text

def defaultApiUrl : String := "https://api.github.com"

def requireSection (config : Json) (name : String) : Except Fault Unit := do
  if ← config.mentions name then return ()
  else throw (.config (.missingSection name))

def isPositive (v : Json) : Bool :=
  match v.whole? with
  | some n => 0 < n
  | none => false

def checkFetch (fetch : Json) (name : String) : Except Fault Unit := do
  if ← fetch.mentions name then
    if isPositive (← fetch.require name) then return ()
    else throw (.config (.notPositive ("fetch." ++ name)))
  else return ()

def isAddress : Json → Bool
  | .str s => "http".toList.isPrefixOf s.toList
  | _ => false

def validate (config : Json) : Except Fault Unit := do
  requireSection config "github"
  requireSection config "database"
  let apiUrl ← (← config.require "github").askOr "api_url" (.str defaultApiUrl)
  if !isAddress apiUrl then throw (.config .apiUrl)
  let path ← (← config.require "database").ask "path"
  if (path.bind Json.text?).isNone then throw (.config .databasePath)
  let fetch ← config.askOr "fetch" (.obj [])
  checkFetch fetch "max_files"
  checkFetch fetch "batch_size"
  checkFetch fetch "max_file_size"
  let maxCards ← (← config.askOr "cards" (.obj [])).askOr "max_cards" (.int Generate.defaultLimit)
  if !isPositive maxCards then throw (.config (.notPositive "cards.max_cards"))

/-- The configuration in the text of its file; there is no text where there is no file. -/
def read (file : Option String) : Except Fault Json :=
  match file with
  | none => .error (.config .missingFile)
  | some text =>
    match Json.parse text.toList with
    | .ok config => .ok config
    | .error m => .error (.malformed m)

def load (file : Option String) : Except Fault Json := do
  let config ← read file
  validate config
  return config

def databasePath (config : Json) : Except Fault String := do
  (← (← config.require "database").require "path").asText

end CodeDeck.Config
