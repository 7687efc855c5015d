import CodeDeck.CommandLine
import CodeDeck.Proofs.Ingest.Success

/-! What the commands leave in the table. A command that fails leaves every row as it was, wherever it fails, unless
it is an ingestion that finds no room for one more repository in its count. One that succeeds changes its own rows only:
queue and statistics none, a reset the progress of its repository, an ingestion the cards of its repository, the visits
and the streak. -/

namespace CodeDeck.CommandLine

section Endings

variable (reported : Fault → Bool) (r : Report)

theorem table_outcome : (outcome reported r).table = r.table := by
  unfold outcome
  split
  · rfl
  · split <;> rfl

theorem outcome_succeeds_iff : (outcome reported r).ending = .exit 0 ↔ r.result = .ok () := by
  unfold outcome
  split
  · next done => simp [done]
  · next fault failed =>
    rw [failed]
    split <;> simp

end Endings

/-- What a command leaves, by its result. -/
inductive Leaves (s : Setting) (config : Json) (t : Table) : Command → Except Fault Unit → Table → Prop
  | failed (command : Command) (fault : Fault) : Leaves s config t command (.error fault) t
  | listed (repo : String) : Leaves s config t (.queue repo) (.ok ()) t
  | told : Leaves s config t .stats (.ok ()) t
  | reset {repo : String} {name : RepoName} (named : RepoName.ofText repo = .ok name) :
      Leaves s config t (.reset repo) (.ok ()) (t.delete (Key.progress name.fullName))
  | ingested {repo : String} {found : Ingest.Result} {fullName : String} (visits : List Json)
      (tally : Streak.Tally) (made : ((Ingest.run s.connect s.routes repo config).perform {}).1 = .ok found)
      (named : found.info.fullName = .str fullName) (writable : found.IsWritable)
      (kept : IsKept (Ingest.stored t fullName found.cards visits tally)) :
      Leaves s config t (.ingest repo) (.ok ()) (Ingest.stored t fullName found.cards visits tally)

section Reports

variable (s : Setting) (config : Json) (table : Option Table)

theorem leaves_ofReading {command : Command} {t : Table} (work : Work Unit)
    (reads : Leaves s config t command (.ok ()) t) :
    Leaves s config t command (Report.ofReading t work).result (opened (Report.ofReading t work).table) := by
  unfold Report.ofReading
  cases work.perform {} with
  | mk result journal =>
    cases result with
    | error fault => exact .failed command fault
    | ok _ => exact reads

theorem leaves_reset {t : Table} {repo : String} {name : RepoName} (named : RepoName.ofText repo = .ok name) :
    Leaves s config t (.reset repo) (reset t name.fullName).result (opened (reset t name.fullName).table) := by
  unfold reset
  cases Ingest.loadCards t name.fullName with
  | error fault => exact .failed _ fault
  | ok cards => exact .reset named

theorem leaves_ingest (loaded : Config.load s.configFile = .ok config) (kept : IsKept (opened table))
    (room : HasRoom (opened table)) (clock : (Json.int s.moment.now : Json).isWritable = true)
    (valid : s.moment.today.Valid) (later : 1 < s.moment.today.number) (repo : String) :
    Leaves s config (opened table) (.ingest repo) (ingest s config repo table).result
      (opened (ingest s config repo table).table) := by
  unfold ingest
  cases came : (Ingest.run s.connect s.routes repo config).perform {} with
  | mk result journal =>
    cases result with
    | error fault => exact .failed _ fault
    | ok found =>
      -- the cards are there: only a name that is no text can still stop the command, in front of the first write
      cases text : found.info.fullName.text? with
      | none =>
        simp only [Ingest.save_of_unnamed text]
        exact .failed _ _
      | some fullName =>
        have named := Json.eq_str_of_text? text
        have made := congrArg Prod.fst came
        have writable := Ingest.isWritable_of_run loaded made
        obtain ⟨visits, tally, saved, kept'⟩ :=
          Ingest.save_of_named named writable Table.taken_of_isWritable clock kept room valid later
        simp only [saved]
        exact .ingested visits tally made named writable kept'

theorem leaves_report (loaded : Config.load s.configFile = .ok config) (kept : IsKept (opened table))
    (clock : (Json.int s.moment.now : Json).isWritable = true) (valid : s.moment.today.Valid)
    (later : 1 < s.moment.today.number) (command : Command)
    (room : (∃ repo, command = .ingest repo) → HasRoom (opened table)) :
    Leaves s config (opened table) command (command.report s config table).result
      (opened (command.report s config table).table) := by
  cases command with
  | ingest repo => exact leaves_ingest s config table loaded kept (room ⟨repo, rfl⟩) clock valid later repo
  | queue repo =>
    simp only [Command.report, forRepo]
    cases RepoName.ofText repo with
    | error fault => exact .failed _ fault
    | ok name => exact leaves_ofReading s config _ (.listed repo)
  | reset repo =>
    simp only [Command.report, forRepo]
    cases named : RepoName.ofText repo with
    | error fault => exact .failed _ fault
    | ok name => exact leaves_reset s config named
  | stats => exact leaves_ofReading s config _ .told

end Reports

section Frame

variable {s : Setting} {config : Json} {t after : Table} {command : Command} {result : Except Fault Unit}

theorem Leaves.eq_of_fails (leaves : Leaves s config t command result after) (fails : result ≠ .ok ()) :
    after = t := by
  cases leaves with
  | failed => rfl
  | _ => exact absurd rfl fails

theorem Leaves.of_queue {repo : String} (leaves : Leaves s config t (.queue repo) result after) : after = t := by
  cases leaves <;> rfl

theorem Leaves.of_stats (leaves : Leaves s config t .stats result after) : after = t := by
  cases leaves <;> rfl

theorem Leaves.of_reset {repo : String} (leaves : Leaves s config t (.reset repo) (.ok ()) after) :
    ∃ name, RepoName.ofText repo = .ok name ∧ after = t.delete (Key.progress name.fullName) ∧
      ∀ key, key ≠ Key.progress name.fullName → after.get? key = t.get? key := by
  cases leaves with
  | reset named => exact ⟨_, named, rfl, fun key other => Table.get?_delete_of_ne other t⟩

theorem Leaves.of_ingest {repo : String} (leaves : Leaves s config t (.ingest repo) (.ok ()) after) :
    ∃ found fullName, ((Ingest.run s.connect s.routes repo config).perform {}).1 = .ok found ∧
      found.info.fullName = .str fullName ∧
      after.get? (Key.cards fullName) = some (.arr (found.cards.map Card.toJson)) ∧
      ∀ key, key ≠ Key.cards fullName → key ≠ Key.recent → key ≠ Key.streak →
        after.get? key = t.get? key := by
  cases leaves with
  | ingested visits tally made named writable _ =>
    refine ⟨_, _, made, named, ?_, ?_⟩
    · exact Except.ok.inj (Ingest.get?_stored_cards t _ _ visits tally (t.taken_of_isWritable _ _ writable.list))
    · intro key notCards notRecent notStreak
      exact Except.ok.inj (Ingest.get?_stored_of_ne t _ _ visits tally notCards notRecent notStreak)

theorem Leaves.isKept (leaves : Leaves s config t command result after) (kept : IsKept t) : IsKept after := by
  cases leaves with
  | failed => exact kept
  | listed => exact kept
  | told => exact kept
  | reset named =>
    apply kept.of_same
    · exact congrArg Except.ok (Table.get?_delete_of_ne (Key.progress_ne_recent _).symm t)
    · exact congrArg Except.ok (Table.get?_delete_of_ne (Key.progress_ne_streak _).symm t)
  | ingested visits tally made named _ kept' => exact kept'

theorem run_cases (s : Setting) (args : List String) (table : Option Table) :
    (run s args table).table = table ∧ (run s args table).ending ≠ .exit 0 ∨
      ∃ config command, Config.load s.configFile = .ok config ∧ Command.ofArgs args = .ok command ∧
        run s args table = outcome command.reports (command.report s config table) := by
  unfold run
  by_cases none : args = []
  · rw [if_pos none]
    exact .inl ⟨rfl, by simp⟩
  · rw [if_neg none]
    cases Config.load s.configFile with
    | error fault =>
      refine .inl ⟨table_outcome .., fun succeeds => ?_⟩
      exact nomatch (outcome_succeeds_iff ..).1 succeeds
    | ok config =>
      cases Command.ofArgs args with
      | error misuse => exact .inl ⟨rfl, by simp⟩
      | ok command => exact .inr ⟨config, command, rfl, rfl, rfl⟩

theorem exists_args_of_ingest {args : List String} {repo : String} (made : Command.ofArgs args = .ok (.ingest repo)) :
    ∃ rest, args = "ingest" :: repo :: rest := by
  unfold Command.ofArgs at made
  split at made
  · exact nomatch made
  · next name others =>
    split at made
    · exact nomatch Except.ok.inj made
    · split at made
      · exact nomatch made
      · exact nomatch made
      · next make first rest onRepo =>
        have same := Except.ok.inj made
        unfold Command.onRepo? at onRepo
        split at onRepo
        · obtain rfl := Option.some.inj onRepo
          obtain rfl := Command.ingest.inj same
          exact ⟨rest, rfl⟩
        · obtain rfl := Option.some.inj onRepo
          exact nomatch same
        · obtain rfl := Option.some.inj onRepo
          exact nomatch same
        · exact nomatch onRepo

theorem run_leaves (s : Setting) (args : List String) (table : Option Table) (kept : IsKept (opened table))
    (room : (∃ repo rest, args = "ingest" :: repo :: rest) → HasRoom (opened table))
    (clock : (Json.int s.moment.now : Json).isWritable = true) (valid : s.moment.today.Valid)
    (year : 2 ≤ s.moment.today.year) :
    (run s args table).table = table ∧ (run s args table).ending ≠ .exit 0 ∨
      ∃ config command result, Config.load s.configFile = .ok config ∧ Command.ofArgs args = .ok command ∧
        ((run s args table).ending = .exit 0 ↔ result = .ok ()) ∧
        Leaves s config (opened table) command result (opened (run s args table).table) := by
  have later : 1 < s.moment.today.number := Nat.lt_trans (by decide) (Date.year_lt_number valid year)
  rcases run_cases s args table with misused | ⟨config, command, loaded, made, ran⟩
  · exact .inl misused
  · refine .inr ⟨config, command, (command.report s config table).result, loaded, made, ?_, ?_⟩
    · rw [ran]
      exact outcome_succeeds_iff ..
    · rw [ran, table_outcome]
      refine leaves_report s config table loaded kept clock valid later command ?_
      rintro ⟨repo, rfl⟩
      exact room ⟨repo, exists_args_of_ingest made⟩

/-- A command that does not succeed leaves the table as it was, and one that does changes the rows of its own keys
only, if an ingestion finds room for one more repository in its count. The clock tells no time of thousands of digits. -/
theorem run_frame (s : Setting) (args : List String) (table : Option Table) (kept : IsKept (opened table))
    (room : (∃ repo rest, args = "ingest" :: repo :: rest) → HasRoom (opened table))
    (clock : (Json.int s.moment.now : Json).isWritable = true) (valid : s.moment.today.Valid)
    (year : 2 ≤ s.moment.today.year) :
    let before := opened table
    let left := run s args table
    let after := opened left.table
    (left.ending ≠ .exit 0 → after = before) ∧
    (∀ repo rest, args = "queue" :: repo :: rest → after = before) ∧
    (∀ rest, args = "stats" :: rest → after = before) ∧
    (∀ repo rest, args = "reset" :: repo :: rest → left.ending = .exit 0 →
      ∃ name, RepoName.ofText repo = .ok name ∧ after = before.delete (Key.progress name.fullName) ∧
        ∀ key, key ≠ Key.progress name.fullName → after.get? key = before.get? key) ∧
    (∀ repo rest, args = "ingest" :: repo :: rest → left.ending = .exit 0 →
      ∃ config found fullName, Config.load s.configFile = .ok config ∧
        ((Ingest.run s.connect s.routes repo config).perform {}).1 = .ok found ∧
        found.info.fullName = .str fullName ∧
        after.get? (Key.cards fullName) = some (.arr (found.cards.map Card.toJson)) ∧
        ∀ key, key ≠ Key.cards fullName → key ≠ Key.recent → key ≠ Key.streak →
          after.get? key = before.get? key) ∧
    IsKept after := by
  intro before left after
  rcases run_leaves s args table kept room clock valid year with
    ⟨same, misused⟩ | ⟨config, command, result, loaded, made, ends, leaves⟩
  · have unchanged : after = before := congrArg opened same
    refine ⟨fun _ => unchanged, fun _ _ _ => unchanged, fun _ _ => unchanged,
      fun _ _ _ succeeds => absurd succeeds misused, fun _ _ _ succeeds => absurd succeeds misused, ?_⟩
    rw [unchanged]
    exact kept
  · refine ⟨?_, ?_, ?_, ?_, ?_, leaves.isKept kept⟩
    · intro fails
      exact leaves.eq_of_fails fun succeeds => fails (ends.2 succeeds)
    · rintro repo rest rfl
      obtain rfl : Command.queue repo = command := Except.ok.inj made
      exact leaves.of_queue
    · rintro rest rfl
      obtain rfl : Command.stats = command := Except.ok.inj made
      exact leaves.of_stats
    · rintro repo rest rfl succeeds
      obtain rfl : Command.reset repo = command := Except.ok.inj made
      obtain rfl := ends.1 succeeds
      exact leaves.of_reset
    · rintro repo rest rfl succeeds
      obtain rfl : Command.ingest repo = command := Except.ok.inj made
      obtain rfl := ends.1 succeeds
      obtain ⟨found, fullName, stored⟩ := leaves.of_ingest
      exact ⟨config, found, fullName, loaded, stored⟩

end Frame

def smallSetting : Setting where
  configFile := some "\x7b\"github\":\x7b\x7d,\"database\":\x7b\"path\":\"d\"\x7d\x7d"
  routes :=
    [("/repos/o/r", .answered 200 "\x7b\"name\":\"r\",\"full_name\":\"o/r\"\x7d".toList),
      ("/repos/o/r/git/trees/main?recursive=1",
        .answered 200 "\x7b\"tree\":[\x7b\"type\":\"blob\",\"path\":\"b.py\"\x7d]\x7d".toList),
      ("/repos/o/r/contents/b.py", .answered 200
        "\x7b\"encoding\":\"base64\",\"content\":\"ZGVmIGYoKToKICByZXR1cm4gMQo=\"\x7d".toList)]
  moment := ⟨7, ⟨2026, 10, 31⟩⟩

def usedTable (repos : Int) : Table where
  rows :=
    [("progress:o/r", .obj [("gen-0-f", .int 1)]),
      ("recent", .arr [.obj [("full_name", .str "o/r")]]),
      ("streak", (Streak.Tally.streak { swipes := 4, repos := repos }).toJson)]

section Used

variable {repos : Int}

theorem heldBy_usedTable (repos : Int) : Streak.Tally.HeldBy { swipes := 4, repos := repos } (usedTable repos) :=
  .inl rfl

theorem eq_of_heldBy_usedTable {tally : Streak.Tally} (told : tally.HeldBy (usedTable repos)) :
    tally.repos = repos := by
  rcases told with written | ⟨absent, _⟩
  · have rows : KeyValueStore.get? (usedTable repos) Key.streak =
        .ok (some (Streak.Tally.streak { swipes := 4, repos := repos }).toJson) := rfl
    rw [rows] at written
    have same := congrArg (Json.field? "total_repos") (Option.some.inj (Except.ok.inj written))
    exact (Json.int.inj (Option.some.inj same)).symm
  · exact nomatch absent

theorem recent_usedTable (repos : Int) :
    ∃ visits, Recent.HeldBy visits (usedTable repos) ∧ (Json.arr visits).isWritable = true :=
  ⟨[.obj [("full_name", .str "o/r")]], ⟨by simp [Json.isObject], .inl rfl⟩, rfl⟩

theorem isWritable_usedStreak (fits : (Json.int repos : Json).isWritable = true) :
    (Streak.Tally.streak { swipes := 4, repos := repos }).toJson.isWritable = true := by
  have none : (Json.int 0 : Json).isWritable = true := Json.isWritable_int_of_lt_ten (by decide)
  have four : (Json.int 4 : Json).isWritable = true := Json.isWritable_int_of_lt_ten (by decide)
  exact Streak.Tally.isWritable_streak.2 ⟨none, none, four, none, fits⟩

theorem isKept_usedTable (fits : (Json.int repos : Json).isWritable = true) : IsKept (usedTable repos) where
  recent := recent_usedTable repos
  streak := ⟨_, heldBy_usedTable repos, isWritable_usedStreak fits⟩

end Used

theorem progress_survives_ingestion :
    IsKept (opened (some (usedTable 2))) ∧ HasRoom (opened (some (usedTable 2))) ∧
    (Json.int smallSetting.moment.now : Json).isWritable = true ∧
    smallSetting.moment.today.Valid ∧ 2 ≤ smallSetting.moment.today.year ∧
    (run smallSetting ["ingest", "o/r"] (some (usedTable 2))).ending = .exit 0 ∧
    (opened (run smallSetting ["ingest", "o/r"] (some (usedTable 2))).table).get? (Key.progress "o/r") =
      (opened (some (usedTable 2))).get? (Key.progress "o/r") ∧
    IsKept (opened (run smallSetting ["ingest", "o/r"] (some (usedTable 2))).table) := by
  have kept : IsKept (opened (some (usedTable 2))) := isKept_usedTable (Json.isWritable_int_of_lt_ten (by decide))
  have room : HasRoom (opened (some (usedTable 2))) := by
    intro tally told
    rw [eq_of_heldBy_usedTable told]
    exact Json.isWritable_int_of_lt_ten (by decide)
  have clock : (Json.int smallSetting.moment.now : Json).isWritable = true := Json.isWritable_int_of_lt_ten (by decide)
  have valid : smallSetting.moment.today.Valid := by decide
  have year : 2 ≤ smallSetting.moment.today.year := by decide
  have succeeds : (run smallSetting ["ingest", "o/r"] (some (usedTable 2))).ending = .exit 0 := by decide +kernel
  obtain ⟨_, _, _, _, ingested, keptAfter⟩ :=
    run_frame smallSetting ["ingest", "o/r"] (some (usedTable 2)) kept (fun _ => room) clock valid year
  obtain ⟨_, _, fullName, _, _, _, _, others⟩ := ingested "o/r" [] rfl succeeds
  refine ⟨kept, room, clock, valid, year, succeeds, ?_, keptAfter⟩
  exact others _ (Key.cards_ne_progress fullName "o/r").symm (Key.progress_ne_recent "o/r")
    (Key.progress_ne_streak "o/r")

section Used

variable {repos : Int}

theorem cards_of_stopped_ingestion (fits : (Json.int repos : Json).isWritable = true)
    (full : (Json.int (repos + 1) : Json).isWritable = false) :
    (run smallSetting ["ingest", "o/r"] (some (usedTable repos))).ending ≠ .exit 0 ∧
      ∃ cards, (opened (run smallSetting ["ingest", "o/r"] (some (usedTable repos))).table).get? (Key.cards "o/r") =
        some cards := by
  obtain ⟨visits, visited, listed⟩ := recent_usedTable repos
  have tells : ((Config.load smallSetting.configFile).bind fun config =>
      ((Ingest.run smallSetting.connect smallSetting.routes "o/r" config).perform {}).1.map fun found =>
        found.info.fullName.text?) = .ok (some "o/r") := by decide +kernel
  obtain ⟨config, loaded, tells⟩ := ok_of_bind tells
  cases came : (Ingest.run smallSetting.connect smallSetting.routes "o/r" config).perform {} with
  | mk result journal =>
    rw [came] at tells
    cases result with
    | error fault => exact nomatch tells
    | ok found =>
      have named := Json.eq_str_of_text? (Except.ok.inj tells)
      have writable := Ingest.isWritable_of_run loaded (congrArg Prod.fst came)
      have clock : (Json.int smallSetting.moment.now : Json).isWritable = true :=
        Json.isWritable_int_of_lt_ten (by decide)
      have valid : smallSetting.moment.today.Valid := by decide
      have later := Streak.one_lt_number valid (by decide)
      obtain ⟨updated, saved⟩ :=
        Ingest.save_of_full named writable visited listed (heldBy_usedTable repos) (isWritable_usedStreak fits)
          full clock valid later
      have made : Command.ofArgs ["ingest", "o/r"] = .ok (.ingest "o/r") := rfl
      have report : Command.report smallSetting config (some (usedTable repos)) (.ingest "o/r") =
          ⟨.error .unwritableNumber, journal.log,
            some (Ingest.noted (usedTable repos) "o/r" found.cards updated)⟩ := by
        simp only [Command.report, ingest, came, opened, Option.getD_some, saved]
      unfold run
      rw [if_neg (by simp), loaded]
      simp only [made, report]
      refine ⟨fun succeeds => ?_, .arr (found.cards.map Card.toJson), ?_⟩
      · exact nomatch (outcome_succeeds_iff ..).1 succeeds
      rw [table_outcome]
      exact Except.ok.inj (Ingest.get?_noted_cards _ _ _ updated (Table.taken_of_isWritable _ _ _ writable.list))

end Used

/-- With the greatest count that can be written, an ingestion fails and leaves cards. -/
theorem full_count_stops_ingestion :
    let t := usedTable (10 ^ Number.maxDigits - 1)
    let left := run smallSetting ["ingest", "o/r"] (some t)
    IsKept (opened (some t)) ∧ left.ending ≠ .exit 0 ∧
      (opened left.table).get? (Key.cards "o/r") ≠ (opened (some t)).get? (Key.cards "o/r") := by
  intro t left
  obtain ⟨fails, cards, written⟩ :=
    cards_of_stopped_ingestion Json.isWritable_greatest Json.isWritable_beyond
  refine ⟨isKept_usedTable Json.isWritable_greatest, fails, ?_⟩
  rw [written]
  exact Option.some_ne_none cards

end CodeDeck.CommandLine
