import CodeDeck.Http.Endpoint
import CodeDeck.Ingest
import CodeDeck.Review.Present
import CodeDeck.Store.Table

/-!
The command line: ingest a repository, list its queue, reset its progress, or print statistics. A
command leaves log lines, printed text and the table, which comes into being when a command first
needs it.
-/

namespace CodeDeck.CommandLine

inductive Command where
  | ingest (repo : String)
  | queue (repo : String)
  | reset (repo : String)
  | stats
  deriving DecidableEq, Repr

inductive Misuse where
  | noCommand
  | unknownCommand (name : String)
  | noRepo
  deriving DecidableEq, Repr

namespace Command

def onRepo? : String → Option (String → Command)
  | "ingest" => some ingest
  | "queue" => some queue
  | "reset" => some reset
  | _ => none

/-- Arguments behind the last one needed are left out of account. -/
def ofArgs : List String → Except Misuse Command
  | [] => .error .noCommand
  | name :: rest =>
    if name = "stats" then .ok stats
    else
      match onRepo? name, rest with
      | none, _ => .error (.unknownCommand name)
      | some _, [] => .error .noRepo
      | some command, repo :: _ => .ok (command repo)

end Command

namespace Misuse

def usageLine : String := "Usage: python pipeline.py <command> [owner/repo]\n"

def commandsLine : String := "Commands: ingest <repo>, queue <repo>, reset <repo>, stats\n"

def printed : Misuse → String
  | noCommand => usageLine ++ commandsLine
  | unknownCommand _ => commandsLine
  | noRepo => usageLine

def log : Misuse → List String
  | unknownCommand name => ["ERROR: Unknown command: " ++ name]
  | _ => []

end Misuse

/-- What a command finds: the text of the configuration file, if there is one, the service's replies,
the time, and the way in which clients are made. -/
structure Setting where
  configFile : Option String
  routes : Http.Routes
  moment : Moment
  connect : Http.Connector := Http.connect

/-- A command ends with an exit code, or on a fault that it does not report. -/
inductive Ending where
  | exit (code : Nat)
  | fault (f : Fault)
  deriving DecidableEq, Repr

structure Outcome where
  ending : Ending
  printed : String
  log : List String
  table : Option Table

structure Report where
  result : Except Fault Unit
  log : List String
  table : Option Table

def opened (table : Option Table) : Table := table.getD {}

def Report.ofReading (t : Table) (work : Work Unit) : Report :=
  let (result, journal) := work.perform {}
  ⟨result, journal.log, some t⟩

def cardLine (c : Card) : String :=
  "  [" ++ c.kind.display ++ "] " ++ c.title.display ++ " (" ++ c.filePath.display
    ++ ") difficulty " ++ c.difficulty.display

def cardLines (cards : List Card) : List String :=
  (cards.take 10).map cardLine
    ++ if 10 < cards.length then ["  ... and " ++ toString (cards.length - 10) ++ " more"] else []

def infoLine (line : String) : String := "INFO: " ++ line

/-- The table is needed only once the cards are there. -/
def ingest (s : Setting) (config : Json) (repo : String) (table : Option Table) : Report :=
  let (result, journal) := (Ingest.run s.connect s.routes repo config).perform {}
  match result with
  | .error f => ⟨.error f, journal.log, table⟩
  | .ok found =>
    let (result, t) := Ingest.save (opened table) found s.moment.now s.moment.today
    match result with
    | .error f => ⟨.error f, journal.log, some t⟩
    | .ok () => ⟨.ok (), journal.log ++ (cardLines found.cards).map infoLine, some t⟩

def warnOfProgress (t : Table) (key : String) : Work Unit :=
  match Deck.load t key with
  | .ok _ => pure ()
  | .error f => Work.warn ("Could not load progress for " ++ key ++ ": " ++ f.message)

def rightAligned (width : Nat) (s : String) : String :=
  String.ofList (List.replicate (width - s.length) ' ') ++ s

def queueLine (progress : Progress) (place : Nat) (c : Card) : String :=
  "  " ++ rightAligned 3 (toString place) ++ ". " ++ Present.dots (progress.get? c.id.key)
    ++ " " ++ c.title.display ++ " [" ++ c.kind.display ++ "]"

def listQueue (progress : Progress) : (place : Nat) → List Card → Work Unit
  | _, [] => pure ()
  | place, c :: rest => do
    Work.info (queueLine progress place c)
    listQueue progress (place + 1) rest

def queue (t : Table) (fullName : String) : Work Unit := do
  let cards ← Work.ofExcept (Ingest.loadCards t fullName)
  if cards.isEmpty then
    Work.info ("[queue] No cards for " ++ fullName ++ ". Run 'ingest' first.")
  else
    let key := Key.progress fullName
    warnOfProgress t key
    let deck := Deck.opened cards t key
    Work.info
      ("[queue] " ++ fullName ++ ": " ++ toString deck.mastered ++ "/" ++ toString deck.total
        ++ " mastered")
    if deck.hasQueue then listQueue deck.progress 1 deck.queue else throw .wrongType

/-- Nothing is reset when the cards of the repository cannot be read. -/
def reset (t : Table) (fullName : String) : Report :=
  match Ingest.loadCards t fullName with
  | .error f => ⟨.error f, [], some t⟩
  | .ok cards =>
    let key := Key.progress fullName
    let (_, journal) := (warnOfProgress t key).perform {}
    ⟨.ok (), journal.log ++ [infoLine ("[reset] Progress cleared for " ++ fullName)],
      some ((Deck.opened cards t key).erased t)⟩

def heatmap (days : List (Date × Bool)) : String :=
  String.ofList (days.map fun day => if day.2 then '■' else '·')

def recentLine (entry : Json) : Except Fault String := do
  let fullName ← entry.require "full_name"
  let cardCount ← entry.require "card_count"
  let stars ← entry.require "stars"
  return "  " ++ fullName.display ++ " (" ++ cardCount.display ++ " cards, " ++ stars.display
    ++ " stars)"

def listRecent : List Json → Work Unit
  | [] => pure ()
  | entry :: rest => do
    Work.info (← Work.ofExcept (recentLine entry))
    listRecent rest

def stats (t : Table) (today : Date) : Work Unit := do
  let streak ← Work.ofExcept (Streak.stored t today)
  Work.info
    ("[streak] current " ++ streak.current.display ++ ", longest " ++ streak.longest.display)
  Work.info
    ("[totals] " ++ streak.totalSwipes.display ++ " reviews, " ++ streak.totalMastered.display
      ++ " mastered, " ++ streak.totalRepos.display ++ " repos")
  let days ← Work.ofExcept (streak.activity today (.int 30))
  Work.info ("[activity] " ++ heatmap days)
  Work.info ("[decks] " ++ toString (t.keys "cards:").length ++ " stored")
  let recent ← Work.ofExcept (Recent.stored t)
  if recent.truthy then
    Work.info "Recent repos:"
    listRecent (← Work.ofExcept recent.asItems)

/-- Work for the repository that a text names; a text that names none leaves the table alone. -/
def forRepo (text : String) (table : Option Table) (work : Table → String → Report) : Report :=
  match RepoName.ofText text with
  | .error f => ⟨.error f, [], table⟩
  | .ok name => work (opened table) name.fullName

def Command.report (s : Setting) (config : Json) (table : Option Table) : Command → Report
  | .ingest repo => CommandLine.ingest s config repo table
  | .queue repo => forRepo repo table fun t fullName => .ofReading t (CommandLine.queue t fullName)
  | .reset repo => forRepo repo table CommandLine.reset
  | .stats => .ofReading (opened table) (CommandLine.stats (opened table) s.moment.today)

/-- The faults that a command reports; statistics report none. -/
def Command.reports (c : Command) (f : Fault) : Bool := c != .stats && f.isReported

/-- A reported fault is logged as an error, and the exit code is one. -/
def outcome (reported : Fault → Bool) (r : Report) : Outcome :=
  match r.result with
  | .ok () => ⟨.exit 0, "", r.log, r.table⟩
  | .error f =>
    if reported f then ⟨.exit 1, "", r.log ++ ["ERROR: " ++ f.message], r.table⟩
    else ⟨.fault f, "", r.log, r.table⟩

/-- Runs the command of the arguments. Without arguments the configuration is not looked at; other
misuse shows only after it has been found valid. -/
def run (s : Setting) (args : List String) (table : Option Table) : Outcome :=
  if args = [] then ⟨.exit 1, Misuse.noCommand.printed, Misuse.noCommand.log, table⟩
  else
    match Config.load s.configFile with
    | .error f => outcome Fault.isConfig ⟨.error f, [], table⟩
    | .ok config =>
      match Command.ofArgs args with
      | .error m => ⟨.exit 1, m.printed, m.log, table⟩
      | .ok command => outcome command.reports (command.report s config table)

end CodeDeck.CommandLine
