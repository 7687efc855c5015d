import CodeDeck.Store.Call
import CodeDeck.Store.Table

/-!
A database file and a connection to it. A write is seen through the connection at once; the file has it
from the next commit on, and closing the connection drops what has not been committed. All texts have to be
encoded, those of the keys and those in the values.
-/

namespace CodeDeck

open CodeDeck.Text

structure Database where
  /-- The table in the file, once it has been created there. -/
  file : Option Table
  /-- The table as it is seen through the connection. -/
  table : Table

namespace Database

def commit (d : Database) : Database := { d with file := some d.table }

def connect (file : Option Table) : Database := commit ⟨file, file.getD {}⟩

def reopen (d : Database) : Database := connect d.file

def get? (key : LooseText) (d : Database) : Except Fault (Option (Json LooseText)) :=
  match key.string? with
  | some key => .ok ((d.table.get? key).map Json.loose)
  | none => .error .loneSurrogate

/-- Each write is committed on its own. -/
def set (key : LooseText) (value : Json LooseText) (d : Database) : Except Fault Unit × Database :=
  if value.isWritable then
    match key.string?, value.encoded? with
    | some key, some row => (.ok (), commit { d with table := d.table.set key row })
    | _, _ => (.error .loneSurrogate, d)
  else (.error .unwritableNumber, d)

def delete (key : LooseText) (d : Database) : Except Fault Unit × Database :=
  match key.string? with
  | some key => (.ok (), commit { d with table := d.table.delete key })
  | none => (.error .loneSurrogate, d)

def keys (lead : LooseText) (d : Database) : List String :=
  (lead.string?.map d.table.keys).getD []

end Database

instance : KeyValueStore Database LooseText where
  get? d key := d.get? key
  set d key value := d.set key value
  delete d key := d.delete key

namespace Database

inductive Step where
  | call (c : StoreCall LooseText)
  | reopen

namespace Step

def call? : Step → Option (StoreCall LooseText)
  | call c => some c
  | reopen => none

def perform (d : Database) : Step → Database
  | call c => (c.perform d).2
  | reopen => d.reopen

end Step

def answers (d : Database) : List Step → List (Except Fault (Json LooseText))
  | [] => []
  | .call c :: rest => (c.perform d).1 :: answers (Step.perform d (.call c)) rest
  | .reopen :: rest => answers (Step.perform d .reopen) rest

def run (d : Database) (steps : List Step) : Database := steps.foldl Step.perform d

end Database

end CodeDeck
