import CodeDeck.CommandLine
import CodeDeck.Json.Printer
import Std.Time.Format

/-!
The program. It works on the files of its directory: `config.json`, the database that this names,
whose rows are kept as one JSON object, and `replies.json`, an object from request targets to the
texts of replies, which stands for the service.
-/

namespace CodeDeck.Program

def textOf? (file : String) : IO (Option String) := do
  try return some (← IO.FS.readFile file)
  catch _ => return none

/-- The fields of the object in a file; a file without one has no fields. -/
def fieldsOf (file : String) : IO (Option (List (String × Json))) := do
  match (← textOf? file).map fun text => Json.parse text.toList with
  | some (.ok (.obj fields)) => return some fields
  | _ => return none

def routes : IO Http.Routes := do
  let fields := (← fieldsOf "replies.json").getD []
  return fields.map fun (target, body) => (target, .answered 200 body.display.toList)

def moment : IO Moment := do
  let now ← Std.Time.Timestamp.now
  let today ← Std.Time.PlainDate.now
  return ⟨now.toMillisecondsSinceUnixEpoch.toInt,
    ⟨today.year.toInt.toNat, today.month.val.toNat, today.day.val.toNat⟩⟩

def databaseFile (configFile : Option String) : Option String :=
  ((Config.read configFile).bind Config.databasePath).toOption

def saveTable (file : String) (t : Table) : IO Unit := do
  let directory := Path.directory file.toList
  if directory != [] then IO.FS.createDirAll (String.ofList directory)
  IO.FS.writeFile file (Json.obj t.rows).render

end CodeDeck.Program

open CodeDeck in
def main (args : List String) : IO UInt32 := do
  let configFile ← Program.textOf? "config.json"
  let database := Program.databaseFile configFile
  let rows ← match database with
    | some file => Program.fieldsOf file
    | none => pure none
  let setting := { configFile := configFile, routes := ← Program.routes, moment := ← Program.moment }
  let outcome := CommandLine.run setting args (rows.map Table.ofRows)
  IO.print outcome.printed
  for line in outcome.log do
    IO.eprintln line
  match database, outcome.table with
  | some file, some t => Program.saveTable file t
  | _, _ => pure ()
  match outcome.ending with
  | .exit code => return code.toUInt32
  | .fault f => throw (IO.userError f.message)
