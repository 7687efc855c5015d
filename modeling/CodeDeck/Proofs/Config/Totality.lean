import CodeDeck.Fetch.Files
import CodeDeck.Proofs.Config

/-! When validation ends as it should, in acceptance or in a fault of the configuration. It takes the shape of the
sections for granted: one that it comes to has to be an object, or else another fault escapes. Only of the `fetch`
section a list or a text is taken as well, as long as it mentions no setting, and then there is nothing that ingestion
could ask for its limits. -/

namespace CodeDeck.Config

/-- The check succeeds, or it refuses the configuration. -/
def Settles {α : Type} (check : Except Fault α) : Prop :=
  (∃ a, check = .ok a) ∨ ∃ problem, check = .error (.config problem)

section Settling

variable {α β : Type} {f : α → Except Fault β} {g : Json → Except Fault β}

theorem settles_ok (a : α) : Settles (.ok a) := .inl ⟨a, rfl⟩

theorem settles_config (problem : ConfigProblem) : Settles (.error (.config problem) : Except Fault α) :=
  .inr ⟨problem, rfl⟩

theorem not_settles_error {fault : Fault} (escapes : fault.isConfig = false) :
    ¬ Settles (.error fault : Except Fault α) := by
  rintro (⟨a, done⟩ | ⟨problem, refused⟩)
  · contradiction
  · obtain rfl := Except.error.inj refused
    contradiction

theorem settles_guard_iff {refused : Prop} [Decidable refused] {problem : ConfigProblem}
    {next : Unit → Except Fault β} {rest : Except Fault β} :
    Settles (if refused then throw (.config problem) >>= next else rest) ↔ (¬ refused → Settles rest) := by
  by_cases holds : refused
  · rw [if_pos holds]
    exact iff_of_true (settles_config problem) fun free => absurd holds free
  · rw [if_neg holds]
    exact ⟨fun settles _ => settles, fun settles => settles holds⟩

theorem ask_of_misfit {v : Json} (misfit : ¬ v.isObject = true) (name : String) :
    v.ask name = .error (.noMember v.kind "get") := by
  cases v with
  | obj fields => exact absurd rfl misfit
  | _ => rfl

theorem settles_ask_iff {v : Json} {name : String} {next : Option Json → Except Fault β} :
    Settles (v.ask name >>= next) ↔ v.isObject = true ∧ Settles (next (v.field? name)) := by
  by_cases object : v.isObject = true
  · cases v with
    | obj fields => exact (and_iff_right rfl).symm
    | _ => contradiction
  · rw [ask_of_misfit object]
    exact iff_of_false (not_settles_error rfl) fun both => object both.1

theorem settles_askOr_iff {v default : Json} {name : String} :
    Settles (v.askOr name default >>= g) ↔ v.isObject = true ∧ Settles (g ((v.field? name).getD default)) := by
  by_cases object : v.isObject = true
  · rw [Json.askOr_of_isObject object]
    exact (and_iff_right object).symm
  · rw [Json.askOr, ask_of_misfit object]
    exact iff_of_false (not_settles_error rfl) fun both => object both.1

theorem settles_requireSection_iff {fields : List (String × Json)} {name : String} {next : Unit → Except Fault β} :
    Settles (requireSection (.obj fields) name >>= next) ↔
      (((Json.obj fields).field? name).isSome = true → Settles (next ())) := by
  have mentioned : (Json.obj fields).mentions name = .ok ((Json.obj fields).field? name).isSome := rfl
  unfold requireSection
  rw [mentioned]
  cases ((Json.obj fields).field? name).isSome with
  | true => exact ⟨fun settles _ => settles, fun settles => settles rfl⟩
  | false => exact iff_of_true (settles_config _) fun given => absurd given Bool.false_ne_true

theorem settles_require_iff {config : Json} {name : String} (given : (config.field? name).isSome = true) :
    Settles (config.require name >>= g) ↔ Settles (g (part config name)) := by
  obtain ⟨v, found⟩ := Option.isSome_iff_exists.1 given
  rw [Json.require_of_field? found, part, found]
  rfl

end Settling

section Fetch

variable {β : Type} {fetch : Json} {name : String}

theorem checkFetch_of_silent (silent : fetch.mentions name = .ok false) : checkFetch fetch name = .ok () := by
  rw [checkFetch, silent]
  rfl

theorem fault_of_mentions {v : Json} {fault : Fault} (refused : v.mentions name = .error fault) :
    fault = .wrongType := by
  cases v with
  | obj fields | arr items | str s => contradiction
  | _ => exact (Except.error.inj refused).symm

theorem checkFetch_of_misfit (misfit : ¬ fetch.isObject = true) (loud : ¬ fetch.mentions name = .ok false) :
    checkFetch fetch name = .error .wrongType := by
  have required : fetch.require name = .error .wrongType := by
    cases fetch with
    | obj fields => exact absurd rfl misfit
    | _ => rfl
  unfold checkFetch
  cases mentioned : fetch.mentions name with
  | error fault => exact congrArg Except.error (fault_of_mentions mentioned)
  | ok given =>
    cases given with
    | false => exact absurd mentioned loud
    | true =>
      rw [required]
      rfl

theorem unset_of_misfit (misfit : ¬ fetch.isObject = true) (name : String) :
    ∀ v, fetch.field? name = some v → isPositive v = true :=
  fun _ found => absurd (Json.isObject_of_field? found) misfit

theorem settles_checkFetch_object_iff {next : Unit → Except Fault β} (object : fetch.isObject = true) :
    Settles (checkFetch fetch name >>= next) ↔
      ((∀ v, fetch.field? name = some v → isPositive v = true) → Settles (next ())) := by
  have mentioned : fetch.mentions name = .ok (fetch.field? name).isSome := by
    cases fetch with
    | obj fields => rfl
    | _ => contradiction
  cases found : fetch.field? name with
  | none =>
    rw [found] at mentioned
    rw [checkFetch_of_silent mentioned]
    exact ⟨fun settles _ => settles, fun settles => settles (by nofun)⟩
  | some v =>
    rw [found] at mentioned
    rw [checkFetch, mentioned, Json.require_of_field? found]
    simp only [Option.some.injEq, forall_eq']
    change Settles ((if isPositive v = true then .ok () else .error _) >>= next) ↔ _
    cases isPositive v with
    | true => exact ⟨fun settles _ => settles, fun settles => settles rfl⟩
    | false => exact iff_of_true (settles_config _) fun positive => absurd positive Bool.false_ne_true

theorem settles_checkFetch_iff {next : Unit → Except Fault β} :
    Settles (checkFetch fetch name >>= next) ↔
      (fetch.isObject = true ∨ fetch.mentions name = .ok false) ∧
        ((∀ v, fetch.field? name = some v → isPositive v = true) → Settles (next ())) := by
  by_cases object : fetch.isObject = true
  · rw [and_iff_right (.inl object), settles_checkFetch_object_iff object]
  · have unset := unset_of_misfit object name
    by_cases silent : fetch.mentions name = .ok false
    · rw [and_iff_right (.inr silent), checkFetch_of_silent silent, forall_prop_of_true unset]
      rfl
    · rw [checkFetch_of_misfit object silent]
      exact iff_of_false (not_settles_error rfl) fun both => both.1.elim object silent

end Fetch

def IsLegible (fetch : Json) : Prop :=
  fetch.isObject = true ∨ ∀ name ∈ fetchNames, fetch.mentions name = .ok false

def HasSections (config : Json) : Prop :=
  (config.field? "github").isSome = true ∧ (config.field? "database").isSome = true

def HasAddress (config : Json) : Prop :=
  isAddress (((part config "github").field? "api_url").getD (.str defaultApiUrl)) = true

def HasPath (config : Json) : Prop := (((part config "database").field? "path").bind Json.text?).isSome = true

def HasLimits (config : Json) : Prop :=
  ∀ name ∈ fetchNames, ∀ v, (part config "fetch").field? name = some v → isPositive v = true

/-- Each section that validation comes to can be read. It comes to the next one only behind settings that are right. -/
def Readable (config : Json) : Prop :=
  HasSections config → (part config "github").isObject = true ∧
    (HasAddress config → (part config "database").isObject = true ∧
      (HasPath config → IsLegible (part config "fetch") ∧
        (HasLimits config → (part config "cards").isObject = true)))

theorem settles_checkFetches_iff {β : Type} {fetch : Json} {next : Except Fault β} :
    Settles (checkFetch fetch "max_files" >>= fun _ => checkFetch fetch "batch_size" >>= fun _ =>
        checkFetch fetch "max_file_size" >>= fun _ => next) ↔
      IsLegible fetch ∧
        ((∀ name ∈ fetchNames, ∀ v, fetch.field? name = some v → isPositive v = true) → Settles next) := by
  rw [settles_checkFetch_iff, settles_checkFetch_iff, settles_checkFetch_iff]
  simp only [IsLegible, fetchNames, List.forall_mem_cons, List.not_mem_nil, false_imp_iff, implies_true, and_true]
  by_cases object : fetch.isObject = true
  · simp only [object, true_or, true_and, and_imp]
  · -- no setting can be wrong here, so that all checks are come to and only the mentions count
    have unset := fun name => iff_true_intro (unset_of_misfit object name)
    simp only [object, Bool.false_eq_true, false_or, unset, true_imp_iff, and_self, and_assoc]

theorem settles_validate_iff (fields : List (String × Json)) :
    Settles (validate (.obj fields)) ↔ Readable (.obj fields) := by
  unfold validate
  -- down the checks in their order; what a check asks for is a conjunct, what it lets pass a premise of the rest
  rw [settles_requireSection_iff, settles_requireSection_iff, Readable, HasSections, and_imp]
  refine imp_congr_right fun github => imp_congr_right fun database => ?_
  rw [settles_require_iff github, settles_askOr_iff, settles_guard_iff]
  refine and_congr_right fun _ => ?_
  rw [Bool.not_eq_true', Bool.not_eq_false]
  refine imp_congr_right fun _ => ?_
  rw [settles_require_iff database, settles_ask_iff, settles_guard_iff, Option.isNone_iff_eq_none, ← ne_eq,
    Option.ne_none_iff_isSome]
  refine and_congr_right fun _ => imp_congr_right fun _ => ?_
  rw [settles_askOr_iff, and_iff_right (by rfl), settles_checkFetches_iff]
  refine and_congr_right fun _ => imp_congr_right fun _ => ?_
  rw [settles_askOr_iff, and_iff_right (by rfl), settles_askOr_iff]
  refine and_iff_left ?_
  split
  · exact settles_config _
  · exact settles_ok ()

def asked (config : Json) (ofPart name : String) (default : Int) : Except Fault Json :=
  (config.askOr ofPart (.obj [])).bind fun section' => section'.askOr name (.int default)

def fetchDefaults : List (String × Int) :=
  [("max_files", Fetch.defaultMaxFiles), ("batch_size", Fetch.defaultBatchSize),
    ("max_file_size", Fetch.defaultMaxFileSize)]

/-- The value stands for a positive number, by which lists are cut off and cut into batches. -/
structure IsLimit (v : Json) (n : Int) : Prop where
  whole : v.whole? = some n
  positive : 0 < n
  bound : v.asBound = .ok (some n)
  batches : ∀ paths, ∃ bs, v.asWhole.bind (Fetch.batchesOf · paths) = .ok bs

theorem isLimit_of_whole? {v : Json} {n : Int} (whole : v.whole? = some n) (positive : 0 < n) : IsLimit v n where
  whole := whole
  positive := positive
  bound := Json.asBound_of_whole? whole
  batches paths := by
    rw [Json.asWhole_of_whole? whole]
    exact ⟨_, (if_neg (by omega)).trans (if_neg (by omega))⟩

def Provides (config : Json) (ofPart name : String) (default : Int) : Prop :=
  ∃ v n, asked config ofPart name default = .ok v ∧ IsLimit v n

section Provided

variable {config : Json} {ofPart name : String} {default : Int}

theorem asked_of_isObject (object : config.isObject = true) (readable : (part config ofPart).isObject = true) :
    asked config ofPart name default = .ok (setting config ofPart name default) := by
  rw [asked, Json.askOr_of_isObject object]
  exact Json.askOr_of_isObject readable name _

theorem provides_of_isPositive (object : config.isObject = true) (readable : (part config ofPart).isObject = true)
    (positive : isPositive (setting config ofPart name default) = true) : Provides config ofPart name default := by
  obtain ⟨whole, positive⟩ := number_of_isPositive positive
  exact ⟨_, _, asked_of_isObject object readable, isLimit_of_whole? whole positive⟩

/-- Nothing is provided by a section that is no object. -/
theorem isObject_of_provides (object : config.isObject = true) (provides : Provides config ofPart name default) :
    (part config ofPart).isObject = true := by
  obtain ⟨v, n, given, -⟩ := provides
  rw [asked, Json.askOr_of_isObject object] at given
  exact Json.isObject_of_askOr given

theorem Valid.provides_maxCards (valid : Valid config) :
    Provides config "cards" "max_cards" Generate.defaultLimit :=
  provides_of_isPositive valid.object valid.cards valid.maxCards

theorem Valid.provides_fetch_iff (valid : Valid config) {limit : String × Int} (named : limit ∈ fetchDefaults) :
    Provides config "fetch" limit.1 limit.2 ↔ (part config "fetch").isObject = true := by
  have name : limit.1 ∈ fetchNames := List.mem_map_of_mem named
  have positive : ∀ limit ∈ fetchDefaults, 0 < limit.2 := by decide
  exact ⟨isObject_of_provides valid.object, fun readable =>
    provides_of_isPositive valid.object readable (valid.isPositive_fetch name (positive limit named))⟩

end Provided

/-- Validation accepts an object or refuses it as a configuration exactly if each section that it comes to can be
read. An accepted one provides the number of cards, and it provides each of the limits for the files exactly if its
`fetch` section is an object. -/
theorem validate_settles_and_provides (fields : List (String × Json)) :
    (Settles (validate (.obj fields)) ↔ Readable (.obj fields)) ∧
      (validate (.obj fields) = .ok () →
        Provides (.obj fields) "cards" "max_cards" Generate.defaultLimit ∧
          ∀ limit ∈ fetchDefaults,
            (Provides (.obj fields) "fetch" limit.1 limit.2 ↔ (part (.obj fields) "fetch").isObject = true)) := by
  refine ⟨settles_validate_iff fields, fun accepted => ?_⟩
  have valid := valid_of_validate accepted
  exact ⟨valid.provides_maxCards, fun limit named => valid.provides_fetch_iff named⟩

def trueBatch : List (String × Json) :=
  [("github", .obj []), ("database", .obj [("path", .str "deck.db")]), ("fetch", .obj [("batch_size", .bool true)])]

/-- The truth value counts as a batch size of one. -/
theorem one_at_a_time_provided :
    validate (.obj trueBatch) = .ok () ∧ Provides (.obj trueBatch) "fetch" "batch_size" Fetch.defaultBatchSize := by
  have accepted : validate (.obj trueBatch) = .ok () := by rfl
  have provides := (validate_settles_and_provides trueBatch).2 accepted
  exact ⟨accepted, (provides.2 ("batch_size", Fetch.defaultBatchSize) (by decide)).2 rfl⟩

example (settings : Json) (listed : settings = .obj [("github", .obj []),
      ("database", .obj [("path", .str "deck.db")]), ("fetch", .arr [])]) :
    validate settings = .ok () ∧
      asked settings "fetch" "max_file_size" Fetch.defaultMaxFileSize = .error (.noMember .arr "get") := by
  subst listed
  exact ⟨by rfl, by rfl⟩

/-- The `database` section is there, but it is no object, and that is not refused but fails. -/
theorem null_database_escapes :
    validate (.obj [("github", .obj []), ("database", .null)]) = .error (.noMember .null "get") ∧
      ¬ Settles (validate (.obj [("github", .obj []), ("database", .null)])) := by
  have escaped : validate (.obj [("github", .obj []), ("database", .null)]) = .error (.noMember .null "get") := by
    rfl
  refine ⟨escaped, ?_⟩
  rw [escaped]
  exact not_settles_error rfl

end CodeDeck.Config
