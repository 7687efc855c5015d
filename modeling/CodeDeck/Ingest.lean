import CodeDeck.Config
import CodeDeck.Fetch.Files
import CodeDeck.Recent
import CodeDeck.Streak

/-!
Ingestion: from a repository to stored cards. Metadata, tree and files are fetched, the blocks of the
files are ranked and turned into cards, and the cards are stored together with a note of the visit.
-/

namespace CodeDeck.Ingest

open CodeDeck.Text CodeDeck.Http

structure Result where
  info : RepoMeta
  cards : List Card

/-- The client for the settings of the `github` section. An empty token is no token. -/
def client (connect : Connector) (github : Json) : Except Fault Client := do
  let apiUrl ← (← github.askOr "api_url" (.str Config.defaultApiUrl)).asText
  let token ← github.askOr "token" .null
  connect apiUrl (if token.truthy then some token.display else none)

def makeCards (info : RepoMeta) (maxCards : Json) (files : List SourceFile) : Work Result := do
  let blocks := Rank.candidates files
  let ranked := Rank.rank blocks
  Work.info
    ("[extract] " ++ toString blocks.length ++ " candidate blocks, " ++ toString ranked.length
      ++ " after dedup")
  if ranked.isEmpty then throw .nothingLearnable
  let bound ← Work.ofExcept maxCards.asBound
  let cards ← Work.ofExcept (Generate.cards ranked bound)
  Work.info
    ("[ingest] Created " ++ toString cards.length ++ " cards for " ++ info.fullName.display)
  return ⟨info, cards⟩

def readFiles (c : Client) (routes : Routes) (name : RepoName) (info : RepoMeta)
    (fetch maxCards : Json) (tree : List TreeEntry) : Work Result := do
  let limit ← Work.ofExcept (fetch.askOr "max_file_size" (.int Fetch.defaultMaxFileSize))
  let kept ← Work.ofExcept (Fetch.select limit tree)
  if kept.isEmpty then throw .noSupportedFiles
  let maxFiles ← Work.ofExcept (fetch.askOr "max_files" (.int Fetch.defaultMaxFiles))
  let count ← Work.ofExcept (Json.smaller (.int kept.length) maxFiles)
  Work.info ("[ingest] Reading " ++ count.display ++ " files...")
  let batchSize ← Work.ofExcept (fetch.askOr "batch_size" (.int Fetch.defaultBatchSize))
  let files ← Fetch.files c routes name kept maxFiles batchSize
  makeCards info maxCards files

def run (connect : Connector) (routes : Routes) (text : String) (config : Json) : Work Result := do
  let name ← Work.ofExcept (RepoName.ofText text)
  let github ← Work.ofExcept (config.askOr "github" (.obj []))
  let fetch ← Work.ofExcept (config.askOr "fetch" (.obj []))
  let cardSettings ← Work.ofExcept (config.askOr "cards" (.obj []))
  let maxCards ← Work.ofExcept (cardSettings.askOr "max_cards" (.int Generate.defaultLimit))
  let c ← Work.ofExcept (client connect github)
  Work.info ("[ingest] Loading " ++ name.fullName ++ "...")
  let info ← Fetch.repo c routes name
  Work.info "[ingest] Scanning file tree..."
  let tree ← Fetch.tree c routes name info.defaultBranch.display
  readFiles c routes name info fetch maxCards tree

def recentEntry (fullName : String) (result : Result) : Json :=
  let (owner, repo) := cut '/' fullName.toList
  .obj [("owner", .str (String.ofList owner)), ("repo", .str (String.ofList repo)),
    ("full_name", .str fullName),
    ("description",
      if result.info.description.truthy then result.info.description else .str ""),
    ("stars", result.info.stars), ("card_count", .int result.cards.length)]

variable {σ : Type} [KeyValueStore σ]

/-- Stores the cards, the note of the visit and the count of repositories, in this order; a fault
leaves what has been stored before it. -/
def save (store : σ) (result : Result) (now : Int) (today : Date) : Except Fault Unit × σ :=
  match result.info.fullName with
  | .str fullName =>
    let cards := Json.arr (result.cards.map Card.toJson)
    match KeyValueStore.set store (Key.cards fullName) cards with
    | (.error e, store) => (.error e, store)
    | (.ok (), store) =>
      match Recent.add store (recentEntry fullName result) (.int now) with
      | (.error e, store) => (.error e, store)
      | (.ok _, store) =>
        let (streak, store) := Streak.recordRepo store today
        (streak.map fun _ => (), store)
  | other => (.error (.noMember other.kind "lower"), store)

def readCards : List Json → Except Fault (List Card)
  | [] => .ok []
  | v :: rest => do
    let first ← Card.ofJson v
    let others ← readCards rest
    return first :: others

def cardsOf (v : Json) : Except Fault (List Card) :=
  if v.truthy then v.asItems.bind readCards else .ok []

def loadCards (store : σ) (fullName : String) : Except Fault (List Card) :=
  (KeyValueStore.read store (Key.cards fullName)).bind cardsOf

end CodeDeck.Ingest
