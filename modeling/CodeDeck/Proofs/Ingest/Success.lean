import CodeDeck.Proofs.Config
import CodeDeck.Proofs.Fetch.Misfits
import CodeDeck.Proofs.Generate
import CodeDeck.Proofs.Ingest.Saved

/-! What an ingestion comes to when it succeeds, whatever the service replies and whatever has been stored before.
Its cards are those of the files that could be read, at least one, and they are written under the name that the
service tells. All that is written of it can be, for it has been read or is small. -/

namespace CodeDeck.Ingest

open CodeDeck.Http

section Run

variable {j : Journal} {found : Result}

theorem info_of_repo {c : Client} {routes : Routes} {name : RepoName} {info : RepoMeta}
    (told : ((Fetch.repo c routes name).perform j).1 = .ok info) :
    info.description.isWritable = true ∧ info.stars.isWritable = true := by
  unfold Fetch.repo at told
  obtain ⟨call, _, told⟩ := Work.exists_of_bind told
  obtain ⟨reading, asked, told⟩ := Work.exists_of_bind told
  obtain ⟨_, _, sent⟩ := Work.exists_of_bind asked
  obtain ⟨answer, read, told⟩ := Work.exists_of_bind told
  obtain rfl : (routes.reply call).read call = reading := Except.ok.inj sent
  have read : (routes.reply call).read call = .ok answer := read
  cases answer with
  | error cause => exact nomatch told
  | ok v =>
    obtain ⟨_, _, parsed⟩ := Fetch.read_eq_value_iff.1 read
    have writable := Json.isWritable_of_parseAs parsed
    have told : RepoMeta.ofJson v = .ok info := told
    obtain ⟨_, _, told⟩ := ok_of_bind told
    obtain ⟨_, _, told⟩ := ok_of_bind told
    obtain ⟨description, described, told⟩ := ok_of_bind told
    obtain ⟨stars, starred, told⟩ := ok_of_bind told
    obtain ⟨_, _, told⟩ := ok_of_bind told
    obtain ⟨_, _, told⟩ := ok_of_bind told
    obtain rfl := Except.ok.inj told
    have none : (Json.int 0 : Json).isWritable = true := Json.isWritable_int_of_lt_ten (by decide)
    exact ⟨Json.isWritable_of_askOr described writable rfl, Json.isWritable_of_askOr starred writable none⟩

theorem found_of_makeCards {info : RepoMeta} {maxCards : Json} {files : List SourceFile}
    (made : ((makeCards info maxCards files).perform j).1 = .ok found) :
    found.info = info ∧ Generate.ofFiles files maxCards = .ok found.cards := by
  unfold makeCards at made
  obtain ⟨_, _, made⟩ := Work.exists_of_bind made
  split at made
  · exact absurd made Work.not_of_throw
  · next some =>
    obtain ⟨bound, known, made⟩ := Work.exists_of_bind made
    obtain ⟨cards, generated, made⟩ := Work.exists_of_bind made
    obtain ⟨_, _, made⟩ := Work.exists_of_bind made
    have known : maxCards.asBound = .ok bound := known
    have generated : Generate.cards (Rank.rank (Rank.candidates files)) bound = .ok cards := generated
    obtain rfl : ⟨info, cards⟩ = found := Except.ok.inj made
    refine ⟨rfl, ?_⟩
    unfold Generate.ofFiles
    split
    · next none => simp [none] at some
    · rw [known, ← generated]
      rfl

theorem found_of_readFiles {c : Client} {routes : Routes} {name : RepoName} {info : RepoMeta} {fetch maxCards : Json}
    {tree : List TreeEntry}
    (made : ((readFiles c routes name info fetch maxCards tree).perform j).1 = .ok found) :
    ∃ files, found.info = info ∧ Generate.ofFiles files maxCards = .ok found.cards := by
  unfold readFiles at made
  obtain ⟨_, _, made⟩ := Work.exists_of_bind made
  obtain ⟨_, _, made⟩ := Work.exists_of_bind made
  split at made
  · exact absurd made Work.not_of_throw
  · obtain ⟨_, _, made⟩ := Work.exists_of_bind made
    obtain ⟨_, _, made⟩ := Work.exists_of_bind made
    obtain ⟨_, _, made⟩ := Work.exists_of_bind made
    obtain ⟨_, _, made⟩ := Work.exists_of_bind made
    obtain ⟨files, _, made⟩ := Work.exists_of_bind made
    exact ⟨files, found_of_makeCards made⟩

/-- A run that succeeds has found a name in the text, metadata that can be written, and files with something to learn. -/
theorem found_of_run {connect : Connector} {routes : Routes} {text : String} {config : Json}
    (valid : Config.Valid config) (made : ((run connect routes text config).perform j).1 = .ok found) :
    ∃ name files, RepoName.ofText text = .ok name ∧
      (found.info.description.isWritable = true ∧ found.info.stars.isWritable = true) ∧
      Generate.ofFiles files (Config.setting config "cards" "max_cards" Generate.defaultLimit) =
        .ok found.cards := by
  unfold run at made
  obtain ⟨name, named, made⟩ := Work.exists_of_bind made
  obtain ⟨_, _, made⟩ := Work.exists_of_bind made
  obtain ⟨_, _, made⟩ := Work.exists_of_bind made
  obtain ⟨cardSettings, asked, made⟩ := Work.exists_of_bind made
  obtain ⟨maxCards, limited, made⟩ := Work.exists_of_bind made
  obtain ⟨_, _, made⟩ := Work.exists_of_bind made
  obtain ⟨_, _, made⟩ := Work.exists_of_bind made
  obtain ⟨info, told, made⟩ := Work.exists_of_bind made
  obtain ⟨_, _, made⟩ := Work.exists_of_bind made
  obtain ⟨_, _, made⟩ := Work.exists_of_bind made
  obtain ⟨files, same, generated⟩ := found_of_readFiles made
  have settings : cardSettings = Config.part config "cards" :=
    Except.ok.inj (Eq.trans (Eq.symm asked) (Json.askOr_of_isObject valid.object "cards" (.obj [])))
  subst settings
  have limit : maxCards = Config.setting config "cards" "max_cards" Generate.defaultLimit :=
    Except.ok.inj (Eq.trans (Eq.symm limited)
      (Json.askOr_of_isObject valid.cards "max_cards" (.int Generate.defaultLimit)))
  exact ⟨name, files, named, same ▸ info_of_repo told, limit ▸ generated⟩

theorem isWritable_of_run {connect : Connector} {routes : Routes} {text : String} {file : Option String} {config : Json}
    (loaded : Config.load file = .ok config) (made : ((run connect routes text config).perform j).1 = .ok found) :
    found.IsWritable := by
  have valid := Config.valid_of_load loaded
  obtain ⟨_, _, _, ⟨described, starred⟩, generated⟩ := found_of_run valid made
  obtain ⟨limit, positive⟩ := Config.count_of_isPositive valid.maxCards
  have few := (Generate.length_of_ofFiles generated limit positive).2
  have default : (Json.int Generate.defaultLimit : Json).isWritable = true :=
    Json.isWritable_int_iff.2 (by decide +kernel)
  have setting := Config.isWritable_setting (Config.isWritable_of_load loaded) "cards" "max_cards" default
  have fits := Json.isWritable_int_iff.1 (Json.isWritable_of_whole? setting limit)
  exact {
    cards := fun c member => (Generate.card_of_ofFiles generated c member).2.2
    count := Json.isWritable_int_iff.2 (Nat.lt_of_le_of_lt few fits)
    description := described
    stars := starred }

end Run

section Save

variable {σ : Type} [KeyValueStore σ] [ReliableStore σ]

theorem get?_of_save {store left : σ} {found : Result} {now : Int} {today : Date}
    (saved : save store found now today = (.ok (), left)) :
    ∃ fullName, found.info.fullName = .str fullName ∧
      KeyValueStore.get? left (Key.cards fullName) = .ok (some (.arr (found.cards.map Card.toJson))) ∧
      ∀ key, key ≠ Key.cards fullName → key ≠ Key.recent → key ≠ Key.streak →
        KeyValueStore.get? left key = KeyValueStore.get? store key := by
  cases told : found.info.fullName.text? with
  | none =>
    rw [save_of_unnamed told] at saved
    exact nomatch congrArg Prod.fst saved
  | some fullName =>
    have named := Json.eq_str_of_text? told
    unfold save at saved
    simp only [named] at saved
    let cards := Json.arr (found.cards.map Card.toJson)
    let first := (KeyValueStore.set store (Key.cards fullName) cards).2
    let second := (Recent.add first (recentEntry fullName found) (.int now)).2
    obtain ⟨taken, last⟩ : (KeyValueStore.set store (Key.cards fullName) cards).1 = .ok () ∧
        left = (Streak.recordRepo second today).2 := by
      split at saved
      · exact nomatch congrArg Prod.fst saved
      · next after taken =>
        obtain rfl : first = after := congrArg Prod.snd taken
        refine ⟨congrArg Prod.fst taken, ?_⟩
        split at saved
        · exact nomatch congrArg Prod.fst saved
        · next other visited =>
          obtain rfl : second = other := congrArg Prod.snd visited
          exact (congrArg Prod.snd saved).symm
    -- from the last write back to the first one
    have others {key : String} (notRecent : key ≠ Key.recent) (notStreak : key ≠ Key.streak) :
        KeyValueStore.get? left key = KeyValueStore.get? first key := by
      calc
        _ = KeyValueStore.get? second key := last ▸ Streak.get?_update_of_ne second today _ notStreak
        _ = KeyValueStore.get? first key := Recent.get?_add_of_ne first _ _ notRecent
    refine ⟨fullName, named, ?_, ?_⟩
    · rw [others (Key.cards_ne_recent fullName) (Key.cards_ne_streak fullName)]
      exact ReliableStore.get?_set_self store taken
    · intro key notCards notRecent notStreak
      rw [others notRecent notStreak]
      exact ReliableStore.get?_set_of_ne store notCards cards

end Save

end CodeDeck.Ingest
