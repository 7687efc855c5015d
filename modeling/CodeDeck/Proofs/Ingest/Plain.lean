import CodeDeck.Ingest
import CodeDeck.Proofs.Config
import CodeDeck.Proofs.Fetch.Files

/-! Ingestion as a plain pipeline. Under a valid configuration, and with a service that replies as it is
meant to, batches, limits and files that fail come to one selection and one reading of it. -/

namespace CodeDeck.Ingest

open CodeDeck.Text CodeDeck.Http

section Plain

variable (config : Json) (c : Client) (routes : Routes) (name : RepoName)

def keptPaths : List String :=
  (Fetch.listing c routes name).filterMap
    (Fetch.keptPath? (Config.number config "fetch" "max_file_size" Fetch.defaultMaxFileSize))

def askedPaths : List String :=
  (keptPaths config c routes name).take
    (Config.count config "fetch" "max_files" Fetch.defaultMaxFiles)

def foundBlocks : List Block :=
  Rank.candidates ((askedPaths config c routes name).filterMap (Fetch.read? c routes name))

/-- The metadata, the tree of the branch, then the files: what the client makes of their references. -/
def plainRequests : List (Option Request) :=
  Fetch.asked? c (Fetch.repoReference name) none ::
    Fetch.asked? c (Fetch.treeReference name (Fetch.branch c routes name)) (some Fetch.treeQuery) ::
      (askedPaths config c routes name).map (Fetch.request? c name)

/-- What the pipeline ends with. -/
inductive Ends : Except Fault Result → Prop
  | unsupported (none : keptPaths config c routes name = []) : Ends (.error .noSupportedFiles)
  | nothing (some : keptPaths config c routes name ≠ [])
      (empty : foundBlocks config c routes name = []) : Ends (.error .nothingLearnable)
  | made {cards : List Card} (some : keptPaths config c routes name ≠ [])
      (found : foundBlocks config c routes name ≠ [])
      (made : Generate.cardsFrom 0 ((Rank.rank (foundBlocks config c routes name)).take
        (Config.count config "cards" "max_cards" Generate.defaultLimit)) = .ok cards) :
      Ends (.ok ⟨RepoMeta.told (Fetch.metadata c routes name), cards⟩)

end Plain

theorem does_makeCards_nothing (info : RepoMeta) (maxCards : Json) {files : List SourceFile}
    (empty : Rank.candidates files = []) :
    Work.Does (makeCards info maxCards files) [] (.error .nothingLearnable) := by
  have unranked : (Rank.rank (Rank.candidates files)).isEmpty = true := by
    rw [List.isEmpty_iff, Rank.rank_eq_nil_iff, empty]
  refine (Work.does_info _).next ?_
  rw [if_pos unranked]
  exact (Work.does_throw _).fails _

theorem does_makeCards (info : RepoMeta) {maxCards : Json} {n : Nat} {files : List SourceFile}
    (found : Rank.candidates files ≠ []) (bound : maxCards.whole? = some (n : Int)) :
    ∃ cards, Generate.cardsFrom 0 ((Rank.rank (Rank.candidates files)).take n) = .ok cards ∧
      Work.Does (makeCards info maxCards files) [] (.ok ⟨info, cards⟩) := by
  have explained (b : Block) (member : b ∈ (Rank.rank (Rank.candidates files)).take n) : b.IsExplained :=
    Rank.isExplained_of_mem_candidates (Rank.mem_of_mem_rank (List.mem_of_mem_take member))
  obtain ⟨cards, made⟩ := (Generate.exists_cardsFrom_iff 0).2 explained
  refine ⟨cards, made, (Work.does_info _).next ?_⟩
  have ranked : ¬ (Rank.rank (Rank.candidates files)).isEmpty = true := by
    rw [List.isEmpty_iff, Rank.rank_eq_nil_iff]
    exact found
  rw [if_neg ranked]
  have generated : Generate.cards (Rank.rank (Rank.candidates files)) (some (n : Int)) = .ok cards := by
    rw [Generate.cards, Generate.upTo_natCast, made]
  refine (Work.does_value (Json.asBound_of_whole? bound)).next ?_
  refine (Work.does_value generated).next ?_
  exact (Work.does_info _).next (Work.does_pure _)

theorem does_readFiles_misfit (c : Client) (routes : Routes) (name : RepoName) (info : RepoMeta)
    {fetch : Json} (misfit : fetch.isObject = false) (maxCards : Json) (tree : List TreeEntry) :
    Work.Does (readFiles c routes name info fetch maxCards tree) [] (.error (.noMember fetch.kind "get")) := by
  have unasked : fetch.askOr "max_file_size" (.int Fetch.defaultMaxFileSize) =
      .error (.noMember fetch.kind "get") := by
    cases fetch with
    | obj fields => simp [Json.isObject] at misfit
    | _ => rfl
  unfold readFiles
  rw [unasked]
  exact (Work.does_ofExcept _).fails _

section Files

variable {config : Json} {c : Client} {routes : Routes} {name : RepoName} {tree : List TreeEntry}

theorem does_readFiles_nothing (object : (Config.part config "fetch").isObject = true)
    (selected : Fetch.select (Config.setting config "fetch" "max_file_size" Fetch.defaultMaxFileSize)
      tree = .ok []) (info : RepoMeta) (maxCards : Json) :
    Work.Does (readFiles c routes name info (Config.part config "fetch") maxCards tree) []
      (.error .noSupportedFiles) := by
  have asked := Json.askOr_of_isObject object "max_file_size" (.int Fetch.defaultMaxFileSize)
  refine (Work.does_value asked).next ?_
  refine (Work.does_value selected).next ?_
  exact (Work.does_throw _).fails _

theorem does_readFiles (valid : Config.Valid config)
    (object : (Config.part config "fetch").isObject = true)
    (some : keptPaths config c routes name ≠ [])
    (selected : Fetch.select (Config.setting config "fetch" "max_file_size" Fetch.defaultMaxFileSize)
      tree = .ok ((keptPaths config c routes name).map .str))
    (readable : ∀ path ∈ askedPaths config c routes name, Fetch.isReadable c routes name path = true)
    {info : RepoMeta} {maxCards : Json} {result : Except Fault Result}
    (rest : Work.Does (makeCards info maxCards
      ((askedPaths config c routes name).filterMap (Fetch.read? c routes name))) [] result) :
    ∃ requests, requests.map Option.some = (askedPaths config c routes name).map (Fetch.request? c name) ∧
      Work.Does (readFiles c routes name info (Config.part config "fetch") maxCards tree) requests result := by
  have asked (setting : String) (default : Int) :=
    Json.askOr_of_isObject object setting (.int default)
  obtain ⟨many, _⟩ := Config.count_of_isPositive (valid.isPositive_fetch
    (by decide : "max_files" ∈ Config.fetchNames) (by decide : 0 < Fetch.defaultMaxFiles))
  obtain ⟨sized, positive⟩ := Config.count_of_isPositive (valid.isPositive_fetch
    (by decide : "batch_size" ∈ Config.fetchNames) (by decide : 0 < Fetch.defaultBatchSize))
  -- the number of files is logged as the smaller one of two, and so it has to compare
  have number (n : Nat) : (Json.int n).whole? = Option.some (n : Int) := rfl
  obtain ⟨least, counted⟩ := Json.smaller_of_whole? (number _) many
  obtain ⟨requests, sent, does⟩ := Fetch.does_files _ many sized positive readable
  refine ⟨requests, sent, ?_⟩
  refine (Work.does_value (asked "max_file_size" Fetch.defaultMaxFileSize)).next ?_
  refine (Work.does_value selected).next ?_
  rw [if_neg (by simpa using some)]
  refine (Work.does_value (asked "max_files" Fetch.defaultMaxFiles)).next ?_
  refine (Work.does_value counted).next ?_
  refine (Work.does_info _).next ?_
  refine (Work.does_value (asked "batch_size" Fetch.defaultBatchSize)).next ?_
  exact does.last rest

end Files

theorem does_run {connect : Connector} {text : String} {config : Json} {name : RepoName} {c : Client} {routes : Routes}
    (valid : Config.Valid config) (named : RepoName.ofText text = .ok name)
    (connected : client connect (Config.part config "github") = .ok c) (served : Fetch.IsServed c routes name)
    {tree : List TreeEntry} (read : TreeEntry.readItems (Fetch.listing c routes name) = .ok tree)
    {others : List Request} {result : Except Fault Result}
    (rest : Work.Does (readFiles c routes name (RepoMeta.told (Fetch.metadata c routes name))
      (Config.part config "fetch") (Config.setting config "cards" "max_cards" Generate.defaultLimit) tree)
      others result) :
    ∃ first second, Fetch.asked? c (Fetch.repoReference name) none = some first ∧
      Fetch.asked? c (Fetch.treeReference name (Fetch.branch c routes name)) (some Fetch.treeQuery) = some second ∧
      Work.Does (run connect routes text config) (first :: second :: others) result := by
  have parts (part : String) := Json.askOr_of_isObject valid.object part (.obj [])
  have maxCards := Json.askOr_of_isObject valid.cards "max_cards" (.int Generate.defaultLimit)
  have branched : (RepoMeta.told (Fetch.metadata c routes name)).defaultBranch.display =
      Fetch.branch c routes name := by
    rw [served.branch_told]
    rfl
  obtain ⟨first, asked, doesRepo⟩ := Fetch.does_repo served
  obtain ⟨second, listed, doesTree⟩ := Fetch.does_tree served read
  refine ⟨first, second, asked, listed, ?_⟩
  -- one step of the run after the other
  refine (Work.does_value named).next ?_
  refine (Work.does_value (parts "github")).next ?_
  refine (Work.does_value (parts "fetch")).next ?_
  refine (Work.does_value (parts "cards")).next ?_
  refine (Work.does_value maxCards).next ?_
  refine (Work.does_value connected).next ?_
  refine (Work.does_info _).next ?_
  refine doesRepo.bind ?_
  refine (Work.does_info _).next ?_
  rw [branched]
  exact doesTree.bind rest

/-- Ingestion sends what the plain pipeline sends, and ends as that ends. -/
theorem run_plain {connect : Connector} {text : String} {config : Json} {name : RepoName} {c : Client} {routes : Routes}
    (valid : Config.validate config = .ok ()) (object : (Config.part config "fetch").isObject = true)
    (named : RepoName.ofText text = .ok name) (connected : client connect (Config.part config "github") = .ok c)
    (served : Fetch.IsServed c routes name)
    (readable : ∀ path ∈ askedPaths config c routes name, Fetch.isReadable c routes name path = true) :
    ∃ requests result, requests.map some = plainRequests config c routes name ∧
      Work.Does (run connect routes text config) requests result ∧ Ends config c routes name result := by
  have checked := Config.valid_of_validate valid
  obtain ⟨limit, positive⟩ := Config.number_of_isPositive (checked.isPositive_fetch
    (by decide : "max_file_size" ∈ Config.fetchNames) (by decide : 0 < Fetch.defaultMaxFileSize))
  obtain ⟨tree, read, selected⟩ := Fetch.select_readItems limit positive served.entries
  -- metadata and tree come first in each of the three cases
  have whole {others : List Request} {result : Except Fault Result}
      (sent : others.map some = (askedPaths config c routes name).map (Fetch.request? c name))
      (rest : Work.Does (readFiles c routes name (RepoMeta.told (Fetch.metadata c routes name))
        (Config.part config "fetch") (Config.setting config "cards" "max_cards" Generate.defaultLimit) tree)
        others result) (ends : Ends config c routes name result) :
      ∃ requests result, requests.map some = plainRequests config c routes name ∧
        Work.Does (run connect routes text config) requests result ∧ Ends config c routes name result := by
    obtain ⟨first, second, asked, listed, does⟩ := does_run checked named connected served read rest
    refine ⟨first :: second :: others, result, ?_, does, ends⟩
    rw [plainRequests, asked, listed, List.map_cons, List.map_cons, sent]
  by_cases none : keptPaths config c routes name = []
  · have unasked : askedPaths config c routes name = [] := by rw [askedPaths, none, List.take_nil]
    have nothing : Fetch.select (Config.setting config "fetch" "max_file_size"
        Fetch.defaultMaxFileSize) tree = .ok [] := by rw [selected, ← keptPaths, none, List.map_nil]
    exact whole (by rw [unasked]; rfl) (does_readFiles_nothing object nothing _ _) (.unsupported none)
  · by_cases empty : foundBlocks config c routes name = []
    · have finished := does_makeCards_nothing (RepoMeta.told (Fetch.metadata c routes name))
        (Config.setting config "cards" "max_cards" Generate.defaultLimit) empty
      obtain ⟨_, sent, chosen⟩ := does_readFiles checked object none selected readable finished
      exact whole sent chosen (.nothing none empty)
    · obtain ⟨cards, made, finished⟩ := does_makeCards (RepoMeta.told (Fetch.metadata c routes name)) empty
        (Config.count_of_isPositive checked.maxCards).1
      obtain ⟨_, sent, chosen⟩ := does_readFiles checked object none selected readable finished
      exact whole sent chosen (.made none empty made)

def smallName : RepoName := ⟨"o", "r"⟩

def smallConfig : Json :=
  .obj [("github", .obj []), ("database", .obj [("path", .str "d")]),
    ("fetch", .obj [("max_files", .int 2), ("batch_size", .int 1)])]

def smallRoutes : Routes :=
  [("/repos/o/r", .answered 200 "\x7b\"name\":\"r\",\"full_name\":\"o/r\"\x7d".toList),
    ("/repos/o/r/git/trees/main?recursive=1", .answered 200
      ("\x7b\"tree\":[\x7b\"type\":\"blob\",\"path\":\"a.py\"\x7d,".toList
        ++ "\x7b\"type\":\"blob\",\"path\":\"b.py\"\x7d]\x7d".toList)),
    ("/repos/o/r/contents/b.py", .answered 200
      "\x7b\"encoding\":\"base64\",\"content\":\"ZGVmIGYoKToKICByZXR1cm4gMQ==\"\x7d".toList)]

theorem client_connect_absent {config : Json} (absent : Config.part config "github" = .obj []) :
    client connect (Config.part config "github") = .ok Fetch.plainClient := by
  have made : Endpoint.of Config.defaultApiUrl none = .ok Fetch.plainEndpoint := by decide +kernel
  rw [absent]
  change (Endpoint.of Config.defaultApiUrl none).map Endpoint.client = _
  rw [made]
  rfl

theorem small_repo_ingested :
    askedPaths smallConfig Fetch.plainClient smallRoutes smallName = ["a.py", "b.py"] ∧
      (foundBlocks smallConfig Fetch.plainClient smallRoutes smallName).map Block.code =
        ["def f():\n  return 1"] ∧
      ∃ requests result, requests.map some = plainRequests smallConfig Fetch.plainClient smallRoutes smallName ∧
        Work.Does (run connect smallRoutes "o/r" smallConfig) requests result ∧
        Ends smallConfig Fetch.plainClient smallRoutes smallName result := by
  have served : Fetch.IsServed Fetch.plainClient smallRoutes smallName :=
    { named := by decide +kernel
      fullNamed := by decide +kernel
      branched := by decide +kernel
      listed := by decide +kernel
      entries := by decide +kernel }
  have asked : askedPaths smallConfig Fetch.plainClient smallRoutes smallName = ["a.py", "b.py"] := by
    decide +kernel
  refine ⟨asked, ?_, ?_⟩
  · rw [foundBlocks, asked]
    decide +kernel
  · refine run_plain (by decide +kernel) rfl (by decide +kernel) (client_connect_absent rfl) served ?_
    rw [asked]
    decide +kernel

/-- Validation lets a `fetch` section pass that is no object, as long as no setting is found in it. No
settings can be read from it, and the run ends behind the tree, whatever the tree holds. -/
theorem run_misfit {connect : Connector} {text : String} {config : Json} {name : RepoName} {c : Client}
    {routes : Routes} (valid : Config.validate config = .ok ())
    (misfit : (Config.part config "fetch").isObject = false) (named : RepoName.ofText text = .ok name)
    (connected : client connect (Config.part config "github") = .ok c) (served : Fetch.IsServed c routes name) :
    ∃ first second, Fetch.asked? c (Fetch.repoReference name) none = some first ∧
      Fetch.asked? c (Fetch.treeReference name (Fetch.branch c routes name)) (some Fetch.treeQuery) = some second ∧
      Work.Does (run connect routes text config) [first, second]
        (.error (.noMember (Config.part config "fetch").kind "get")) := by
  have one : (Json.int 1).whole? = some 1 := rfl
  obtain ⟨tree, read, _⟩ := Fetch.select_readItems one Int.one_pos served.entries
  exact does_run (Config.valid_of_validate valid) named connected served read
    (does_readFiles_misfit c routes name _ misfit _ tree)

def listConfig : Json :=
  .obj [("github", .obj []), ("database", .obj [("path", .str "d")]), ("fetch", .arr [])]

def emptyRoutes : Routes :=
  [("/repos/o/r", .answered 200 "\x7b\"name\":\"r\",\"full_name\":\"o/r\"\x7d".toList),
    ("/repos/o/r/git/trees/main?recursive=1", .answered 200 "\x7b\"tree\":[]\x7d".toList)]

/-- With a list for its settings, a repository without files ends in a fault that nothing reports. -/
theorem list_of_settings_escapes :
    Config.validate listConfig = .ok () ∧ Fetch.IsServed Fetch.plainClient emptyRoutes smallName ∧
      keptPaths listConfig Fetch.plainClient emptyRoutes smallName = [] ∧
      ¬ ∃ requests result, requests.map some = plainRequests listConfig Fetch.plainClient emptyRoutes smallName ∧
        Work.Does (run connect emptyRoutes "o/r" listConfig) requests result ∧
        Ends listConfig Fetch.plainClient emptyRoutes smallName result := by
  have valid : Config.validate listConfig = .ok () := by decide +kernel
  have served : Fetch.IsServed Fetch.plainClient emptyRoutes smallName :=
    { named := by decide +kernel
      fullNamed := by decide +kernel
      branched := by decide +kernel
      listed := by decide +kernel
      entries := by decide +kernel }
  have named : RepoName.ofText "o/r" = .ok smallName := by decide +kernel
  obtain ⟨_, _, _, _, escapes⟩ := run_misfit valid rfl named (client_connect_absent rfl) served
  refine ⟨valid, served, by decide +kernel, ?_⟩
  rintro ⟨_, result, _, does, ends⟩
  have same := (does {}).1.symm.trans (escapes {}).1
  rw [same] at ends
  cases ends

end CodeDeck.Ingest
