import CodeDeck.Proofs.CommandLine.Frame
import CodeDeck.Proofs.Ingest.Stored
import CodeDeck.Proofs.Ingest.Success
import CodeDeck.Proofs.Review.Step

/-! Ingested cards as they come to review. Cards are written under the name that the service tells and read under the
one in a text; where the two differ in case only, what has been generated is what is loaded, and what is listed as
long as there is no progress. -/

namespace CodeDeck.CommandLine

open CodeDeck.Text

section Listing

def unseenHeadline (fullName : String) (cards : List Card) : String :=
  infoLine ("[queue] " ++ fullName ++ ": 0/" ++ toString cards.length ++ " mastered")

/-- The line of a card that has not been seen: its place, three empty dots, its title and its kind. -/
def unseenLine (place : Nat) (c : Card) : String :=
  infoLine ("  " ++ rightAligned 3 (toString place) ++ ". ○○○ " ++ c.title.display ++ " [" ++ c.kind.display ++ "]")

def unseenLines (place : Nat) (cards : List Card) : List String :=
  (cards.zipIdx place).map fun entry => unseenLine entry.2 entry.1

theorem queueLine_of_unseen (place : Nat) (c : Card) : infoLine (queueLine [] place c) = unseenLine place c := by
  have dots : Present.dots none = "○○○" := by decide
  have join : ". " ++ "○○○" ++ " " = ". ○○○ " := by decide
  unfold queueLine unseenLine
  rw [Assoc.get?_nil, dots]
  simp only [String.append_assoc, ← join]

theorem perform_listQueue (cards : List Card) (place : Nat) (j : Journal) :
    (listQueue [] place cards).perform j = (.ok (), { j with log := j.log ++ unseenLines place cards }) := by
  induction cards generalizing place j with
  | nil =>
    simp only [unseenLines, List.zipIdx_nil, List.map_nil, List.append_nil]
    rfl
  | cons c rest ih =>
    let listed : Journal := { j with log := j.log ++ [infoLine (queueLine [] place c)] }
    calc
      _ = (listQueue [] (place + 1) rest).perform listed := Work.perform_bind ..
      _ = (.ok (), { listed with log := listed.log ++ unseenLines (place + 1) rest }) := ih ..
      _ = _ := by
        simp only [listed, queueLine_of_unseen, unseenLines, List.zipIdx_cons, List.map_cons, List.append_assoc,
          List.singleton_append]

theorem perform_queue {t : Table} {fullName : String} {cards : List Card}
    (loaded : Ingest.loadCards t fullName = .ok cards) (some : cards ≠ [])
    (lookup : ∀ c ∈ cards, c.id.isKey = true) (absent : t.get? (Key.progress fullName) = none) :
    (queue t fullName).perform {} =
      (.ok (), { log := unseenHeadline fullName cards :: unseenLines 1 cards }) := by
  have missing : KeyValueStore.get? t (Key.progress fullName) = .ok none := congrArg Except.ok absent
  have silent : warnOfProgress t (Key.progress fullName) = pure () := by
    simp only [warnOfProgress, Deck.load_absent missing]
  have full : ¬ cards.isEmpty = true := by
    rw [List.isEmpty_iff]
    exact some
  have progress := Deck.progress_opened_of_absent cards missing
  have queued := Deck.queue_opened_of_absent cards missing
  have mastered : (Deck.opened cards t (Key.progress fullName)).mastered = 0 := by
    rw [Deck.mastered, progress]
    rfl
  have open_ : (Deck.opened cards t (Key.progress fullName)).hasQueue = true := List.all_eq_true.2 lookup
  have lists : queue t fullName = (do
      Work.info ("[queue] " ++ fullName ++ ": 0/" ++ toString cards.length ++ " mastered")
      listQueue [] 1 cards) := by
    have found : Work.ofExcept (Ingest.loadCards t fullName) = pure cards := congrArg Work.ofExcept loaded
    unfold queue
    rw [found, pure_bind, if_neg full]
    simp only [silent, pure_bind, mastered, if_pos open_, progress, queued]
    have join : ": " ++ toString 0 ++ "/" = ": 0/" := by decide
    simp only [Deck.total, Deck.opened, String.append_assoc, ← join]
  let headed : Journal := { log := [unseenHeadline fullName cards] }
  calc
    _ = (listQueue [] 1 cards).perform headed := by
      rw [lists, Work.perform_bind]
      rfl
    _ = (.ok (), { headed with log := headed.log ++ unseenLines 1 cards }) := perform_listQueue cards 1 headed
    _ = _ := rfl

end Listing

section Runs

variable {s : Setting} {repo : String} {rest : List String} {table : Option Table}

theorem exists_of_ingest {config : Json} (done : (ingest s config repo table).result = .ok ()) :
    ∃ found left, ((Ingest.run s.connect s.routes repo config).perform {}).1 = .ok found ∧
      Ingest.save (opened table) found s.moment.now s.moment.today = (.ok (), left) ∧
      (ingest s config repo table).table = some left := by
  unfold ingest at done ⊢
  cases came : (Ingest.run s.connect s.routes repo config).perform {} with
  | mk result journal =>
    cases result with
    | error fault => simp [came] at done
    | ok found =>
      cases kept : Ingest.save (opened table) found s.moment.now s.moment.today with
      | mk saved left =>
        cases saved with
        | error fault => simp [came, kept] at done
        | ok done => exact ⟨found, left, rfl, kept, by simp only [kept]⟩

theorem exists_of_run_ingest (succeeds : (run s ("ingest" :: repo :: rest) table).ending = .exit 0) :
    ∃ config found left, Config.load s.configFile = .ok config ∧
      ((Ingest.run s.connect s.routes repo config).perform {}).1 = .ok found ∧
      Ingest.save (opened table) found s.moment.now s.moment.today = (.ok (), left) ∧
      (run s ("ingest" :: repo :: rest) table).table = some left := by
  rcases run_cases s ("ingest" :: repo :: rest) table with ⟨_, misused⟩ | ⟨config, command, loaded, made, ran⟩
  · exact absurd succeeds misused
  · obtain rfl : Command.ingest repo = command := Except.ok.inj made
    rw [ran] at succeeds ⊢
    have done := (outcome_succeeds_iff ..).1 succeeds
    obtain ⟨found, left, came, saved, leaves⟩ := exists_of_ingest done
    exact ⟨config, found, left, loaded, came, saved, (table_outcome ..).trans leaves⟩

theorem run_queue {config : Json} (loaded : Config.load s.configFile = .ok config) {name : RepoName}
    (named : RepoName.ofText repo = .ok name) {t : Table} {lines : List String}
    (listed : (queue t name.fullName).perform {} = (.ok (), { log := lines })) :
    run s ("queue" :: repo :: rest) (some t) = ⟨.exit 0, "", lines, some t⟩ := by
  have made : Command.ofArgs ("queue" :: repo :: rest) = .ok (.queue repo) := rfl
  have report : Command.report s config (some t) (.queue repo) = ⟨.ok (), lines, some t⟩ := by
    simp only [Command.report, forRepo, named, opened, Option.getD_some, Report.ofReading, listed]
  unfold run
  rw [if_neg (by simp), loaded]
  simp only [made, report]
  rfl

/-- What is ingested is what is reviewed. -/
theorem run_ingest_reviewed (succeeds : (run s ("ingest" :: repo :: rest) table).ending = .exit 0) :
    let left := run s ("ingest" :: repo :: rest) table
    ∃ config name found fullName, Config.load s.configFile = .ok config ∧ RepoName.ofText repo = .ok name ∧
      ((Ingest.run s.connect s.routes repo config).perform {}).1 = .ok found ∧ found.info.fullName = .str fullName ∧
      (∃ files limit, Generate.ofFiles files limit = .ok found.cards) ∧ found.cards ≠ [] ∧
      (lowerString fullName = lowerString name.fullName →
        (∀ text other, RepoName.ofText text = .ok other →
          lowerString other.fullName = lowerString name.fullName →
          Ingest.loadCards (opened left.table) other.fullName = .ok found.cards) ∧
        (∀ other, lowerString other ≠ lowerString name.fullName →
          (opened left.table).get? (Key.cards other) = (opened table).get? (Key.cards other)) ∧
        ((opened table).get? (Key.progress name.fullName) = none →
          ∀ (later : Setting) text other more, later.configFile = s.configFile → RepoName.ofText text = .ok other →
            lowerString other.fullName = lowerString name.fullName →
            run later ("queue" :: text :: more) left.table =
              ⟨.exit 0, "", unseenHeadline other.fullName found.cards :: unseenLines 1 found.cards, left.table⟩)) := by
  intro left
  obtain ⟨config, found, t, loaded, made, saved, leaves⟩ := exists_of_run_ingest succeeds
  have valid := Config.valid_of_load loaded
  obtain ⟨limit, positive⟩ := Config.count_of_isPositive valid.maxCards
  obtain ⟨name, files, named, _, generated⟩ := Ingest.found_of_run valid made
  obtain ⟨fullName, told, written, others⟩ := Ingest.get?_of_save saved
  have some := (Generate.length_of_ofFiles generated limit positive).1
  have cards := Generate.card_of_ofFiles generated
  have same : opened left.table = t := congrArg opened leaves
  refine ⟨config, name, found, fullName, loaded, named, made, told, ⟨files, _, generated⟩, some, fun own => ?_⟩
  -- cards and progress of a repository stand under one key each, however the case of its name is
  have cardsKey {other : String} (alike : lowerString other = lowerString name.fullName) :
      Key.cards other = Key.cards fullName := by
    rw [Key.cards, Key.cards, alike, own]
  have loads {other : String} (alike : lowerString other = lowerString name.fullName) :
      Ingest.loadCards t other = .ok found.cards := by
    apply Ingest.loadCards_of_written _ fun c member => (cards c member).2.1
    rw [cardsKey alike]
    exact Except.ok.inj written
  rw [same, show left.table = .some t from leaves]
  refine ⟨fun text other _ alike => loads alike, ?_, ?_⟩
  · intro other different
    apply Except.ok.inj
    apply others _ _ (Key.cards_ne_recent other) (Key.cards_ne_streak other)
    intro equal
    exact different ((Key.cards_inj equal).trans own)
  · intro absent later text other more sameFile read alike
    have progressKey : Key.progress other.fullName = Key.progress name.fullName := by
      rw [Key.progress, Key.progress, alike]
    have untouched : t.get? (Key.progress other.fullName) = none := by
      rw [progressKey, ← absent]
      apply Except.ok.inj
      exact others _ (Key.cards_ne_progress fullName _).symm (Key.progress_ne_recent _) (Key.progress_ne_streak _)
    apply run_queue (sameFile ▸ loaded) read
    exact perform_queue (loads alike) some (fun c member => (cards c member).1) untouched

end Runs

/-- What is ingested under one spelling of a name is loaded and listed under another. -/
theorem other_spelling_lists_ingested :
    (run smallSetting ["ingest", "o/r"] none).ending = .exit 0 ∧
      ∃ cards, cards ≠ [] ∧
        Ingest.loadCards (opened (run smallSetting ["ingest", "o/r"] none).table) "O/R" = .ok cards ∧
        run smallSetting ["queue", "https://github.com/O/R"] (run smallSetting ["ingest", "o/r"] none).table =
          ⟨.exit 0, "", unseenHeadline "O/R" cards :: unseenLines 1 cards,
            (run smallSetting ["ingest", "o/r"] none).table⟩ := by
  have succeeds : (run smallSetting ["ingest", "o/r"] none).ending = .exit 0 := by decide +kernel
  have named : RepoName.ofText "o/r" = .ok ⟨"o", "r"⟩ := by decide +kernel
  have address : RepoName.ofText "https://github.com/O/R" = .ok ⟨"O", "R"⟩ := by decide +kernel
  have small : RepoName.fullName ⟨"o", "r"⟩ = "o/r" := by decide +kernel
  have large : RepoName.fullName ⟨"O", "R"⟩ = "O/R" := by decide +kernel
  have alike : lowerString "O/R" = lowerString "o/r" := by decide +kernel
  have tells : ((Config.load smallSetting.configFile).bind fun config =>
      ((Ingest.run smallSetting.connect smallSetting.routes "o/r" config).perform {}).1.map fun found =>
        found.info.fullName.text?) = .ok (some "o/r") := by decide +kernel
  obtain ⟨config, name, found, fullName, loaded, read, made, told, _, some, reviewed⟩ := run_ingest_reviewed succeeds
  obtain rfl : name = ⟨"o", "r"⟩ := Except.ok.inj (read.symm.trans named)
  obtain rfl : fullName = "o/r" := by
    rw [loaded, Except.bind, made, Except.map, told] at tells
    exact Option.some.inj (Except.ok.inj tells)
  rw [small] at reviewed
  obtain ⟨loads, _, lists⟩ := reviewed rfl
  have found' := loads _ _ address (large ▸ alike)
  have listed := lists rfl smallSetting _ _ [] rfl address (large ▸ alike)
  rw [large] at found' listed
  exact ⟨succeeds, found.cards, some, found', listed⟩

end CodeDeck.CommandLine
