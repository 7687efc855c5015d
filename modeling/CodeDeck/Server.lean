import CodeDeck.Ingest
import CodeDeck.Review.Present
import CodeDeck.Store.Table

/-!
The review server: four tools over one table, each addressed to a repository. The deck of a repository
is loaded when it is first asked for and stays in memory from then on.
-/

namespace CodeDeck

open CodeDeck.Text

inductive Tool where
  | currentCard
  | review (action : String)
  | progress
  | restart
  deriving DecidableEq, Repr

namespace Tool

def names : List String := ["current_card", "progress", "restart", "review"]

/-- The tool of a name; only a review needs an action, and this has to be a text. -/
def ofName? (name : String) (action : Option Json) : Option Tool :=
  match name with
  | "current_card" => some currentCard
  | "review" => (action.bind Json.text?).map review
  | "progress" => some progress
  | "restart" => some restart
  | _ => none

def answer (tool : Tool) (s : Session Table) (today : Date) :
    Except Fault String × Session Table :=
  match tool with
  | currentCard => (Present.current s.deck, s)
  | review action => Present.review s action today
  | progress => (.ok (Present.progress s.deck), s)
  | restart =>
    (.ok ("Progress cleared. " ++ toString s.deck.total ++ " cards to review."),
      (s.step .restart).2)

end Tool

structure Call where
  tool : Tool
  repo : String
  deriving DecidableEq, Repr

def Call.ofArgs? (tool : String) (args : Json) : Option Call := do
  let tool ← Tool.ofName? tool (args.field? "action")
  let repo ← (args.field? "repo").bind Json.text?
  return ⟨tool, repo⟩

/-- Decks stand under the lower-case names of their repositories. -/
structure Server where
  name : Json
  decks : Assoc String Deck := []
  table : Table

namespace Server

def create (config : Json) (table : Table) : Except Fault Server := do
  let name ← (← config.askOr "mcp" (.obj [])).askOr "server_name" (.str "repocards")
  let _path ← Config.databasePath config
  return { name := if name.truthy then name else .str "FastMCP", table := table }

/-- The deck of a repository; there is none as long as the repository has no cards. -/
def deck? (s : Server) (fullName : String) : Except Fault (Option Deck) :=
  match s.decks.get? fullName with
  | some deck => .ok (some deck)
  | none =>
    (Ingest.loadCards s.table fullName).map fun cards =>
      if cards.isEmpty then none
      else some (Deck.opened cards s.table (Key.progress fullName))

def notIngested (repo : String) : String :=
  "No cards for '" ++ repo ++ "'. Run 'python pipeline.py ingest " ++ repo ++ "' first."

/-- Answers a call. A repository that is not understood or has no cards changes nothing. -/
def call (s : Server) (c : Call) (m : Moment) : Except Fault String × Server :=
  match RepoName.ofText c.repo with
  | .error f => (.ok ("Error: " ++ f.message), s)
  | .ok name =>
    let fullName := lowerString name.fullName
    match s.deck? fullName with
    | .error f => (.error f, s)
    | .ok none => (.ok (notIngested c.repo), s)
    | .ok (some deck) =>
      let session : Session Table := { deck := deck, store := s.table, clock := fun _ => m.now }
      let (reply, session) := c.tool.answer session m.today
      (reply,
        { s with decks := s.decks.set fullName session.deck, table := session.store })

def serve (s : Server) : List (Call × Moment) → Except Fault (List String × Server)
  | [] => .ok ([], s)
  | (c, m) :: rest =>
    match s.call c m with
    | (.error f, _) => .error f
    | (.ok reply, s) => (serve s rest).map fun (replies, s) => (reply :: replies, s)

end Server

end CodeDeck
