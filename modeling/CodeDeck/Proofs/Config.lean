import CodeDeck.Config
import CodeDeck.Proofs.Json
import CodeDeck.Proofs.Json.Limits

/-! What a validated configuration provides: objects where settings are asked for, and positive numbers for
those that are numbers. Whether the `fetch` section is an object is not looked at. -/

namespace CodeDeck.Config

/-- A section of the configuration; an absent one has no settings. -/
def part (config : Json) (name : String) : Json := (config.field? name).getD (.obj [])

def setting (config : Json) (ofPart name : String) (default : Int) : Json :=
  ((part config ofPart).field? name).getD (.int default)

def number (config : Json) (ofPart name : String) (default : Int) : Int :=
  (setting config ofPart name default).whole?.getD 0

def count (config : Json) (ofPart name : String) (default : Int) : Nat :=
  (number config ofPart name default).toNat

def fetchNames : List String := ["max_files", "batch_size", "max_file_size"]

/-- What validation makes sure of, as far as ingestion depends on it. -/
structure Valid (config : Json) : Prop where
  object : config.isObject = true
  github : (part config "github").isObject = true
  cards : (part config "cards").isObject = true
  fetch : ∀ name ∈ fetchNames, checkFetch (part config "fetch") name = .ok ()
  maxCards : isPositive (setting config "cards" "max_cards" Generate.defaultLimit) = true

theorem ok_of_guard {ε β : Type} {refused : Prop} [Decidable refused] {fault : ε}
    {next : Unit → Except ε β} {rest : Except ε β} {b : β}
    (passed : (if refused then throw fault >>= next else rest) = .ok b) : ¬ refused ∧ rest = .ok b := by
  by_cases holds : refused
  · rw [if_pos holds] at passed
    exact absurd passed (by simp [throw, throwThe, MonadExceptOf.throw, bind, Except.bind])
  · rw [if_neg holds] at passed
    exact ⟨holds, passed⟩

theorem part_of_require {config section' : Json} {name : String}
    (required : config.require name = .ok section') :
    config.isObject = true ∧ part config name = section' := by
  cases config with
  | obj fields =>
    cases found : Assoc.get? name fields with
    | none => simp [Json.require, found] at required
    | some v =>
      have same : v = section' := by simpa [Json.require, found] using required
      exact ⟨rfl, by simp [part, Json.field?, found, same]⟩
  | _ => simp [Json.require] at required

theorem valid_of_validate {config : Json} (validated : validate config = .ok ()) : Valid config := by
  unfold validate at validated
  obtain ⟨_, _, validated⟩ := ok_of_bind validated
  obtain ⟨_, _, validated⟩ := ok_of_bind validated
  obtain ⟨github, required, validated⟩ := ok_of_bind validated
  obtain ⟨apiUrl, asked, validated⟩ := ok_of_bind validated
  obtain ⟨_, validated⟩ := ok_of_guard validated
  obtain ⟨_, _, validated⟩ := ok_of_bind validated
  obtain ⟨_, _, validated⟩ := ok_of_bind validated
  obtain ⟨_, validated⟩ := ok_of_guard validated
  obtain ⟨fetch, fetched, validated⟩ := ok_of_bind validated
  obtain ⟨_, files, validated⟩ := ok_of_bind validated
  obtain ⟨_, batch, validated⟩ := ok_of_bind validated
  obtain ⟨_, size, validated⟩ := ok_of_bind validated
  obtain ⟨cards, carded, validated⟩ := ok_of_bind validated
  obtain ⟨maxCards, limited, validated⟩ := ok_of_bind validated
  obtain ⟨object, rfl⟩ := part_of_require required
  rw [Json.askOr_of_isObject object] at fetched carded
  obtain rfl : part config "fetch" = fetch := Except.ok.inj fetched
  obtain rfl : part config "cards" = cards := Except.ok.inj carded
  have cardsObject := Json.isObject_of_askOr limited
  rw [Json.askOr_of_isObject cardsObject] at limited
  obtain rfl : setting config "cards" "max_cards" Generate.defaultLimit = maxCards :=
    Except.ok.inj limited
  exact {
    object := object
    github := Json.isObject_of_askOr asked
    cards := cardsObject
    fetch := by
      intro name member
      simp only [fetchNames, List.mem_cons, List.not_mem_nil, or_false] at member
      rcases member with rfl | rfl | rfl
      · exact files
      · exact batch
      · exact size
    maxCards := by
      cases positive : isPositive (setting config "cards" "max_cards" Generate.defaultLimit) with
      | true => rfl
      | false => simp [positive, throw, throwThe, MonadExceptOf.throw] at validated }

theorem valid_of_load {file : Option String} {config : Json} (loaded : load file = .ok config) : Valid config := by
  obtain ⟨read, _, loaded⟩ := ok_of_bind loaded
  obtain ⟨_, validated, loaded⟩ := ok_of_bind loaded
  obtain rfl : read = config := Except.ok.inj loaded
  exact valid_of_validate validated

theorem isWritable_of_load {file : Option String} {config : Json} (loaded : load file = .ok config) :
    config.isWritable = true := by
  obtain ⟨value, found, loaded⟩ := ok_of_bind loaded
  obtain ⟨_, _, loaded⟩ := ok_of_bind loaded
  obtain rfl : value = config := Except.ok.inj loaded
  unfold read at found
  split at found
  · exact nomatch found
  · split at found
    · next parsed =>
      obtain rfl := Except.ok.inj found
      exact Json.isWritable_of_parseAs parsed
    · exact nomatch found

theorem isWritable_setting {config : Json} (writable : config.isWritable = true) (ofPart name : String) {default : Int}
    (own : (Json.int default : Json).isWritable = true) : (setting config ofPart name default).isWritable = true :=
  Json.isWritable_field (Json.isWritable_field writable ofPart rfl) name own

theorem number_of_isPositive {config : Json} {ofPart name : String} {default : Int}
    (positive : isPositive (setting config ofPart name default) = true) :
    (setting config ofPart name default).whole? = some (number config ofPart name default) ∧
      0 < number config ofPart name default := by
  unfold isPositive at positive
  unfold number
  split at positive
  · next n whole =>
    rw [whole]
    exact ⟨rfl, of_decide_eq_true positive⟩
  · contradiction

theorem count_of_isPositive {config : Json} {ofPart name : String} {default : Int}
    (positive : isPositive (setting config ofPart name default) = true) :
    (setting config ofPart name default).whole? = some (count config ofPart name default : Int) ∧
      0 < count config ofPart name default := by
  obtain ⟨whole, positive⟩ := number_of_isPositive positive
  rw [whole, count, Int.toNat_of_nonneg (Int.le_of_lt positive)]
  exact ⟨rfl, by omega⟩

theorem isPositive_of_checkFetch {fetch v : Json} {name : String}
    (checked : checkFetch fetch name = .ok ()) (found : fetch.field? name = some v) :
    isPositive v = true := by
  have mentioned : fetch.mentions name = .ok true := by
    cases fetch with
    | obj fields =>
      have held : Assoc.get? name fields = some v := found
      simp [Json.mentions, Assoc.has, held]
    | _ => simp [Json.field?] at found
  rw [checkFetch, mentioned, Json.require_of_field? found] at checked
  cases positive : isPositive v with
  | true => rfl
  | false => simp [positive, bind, Except.bind, throw, throwThe, MonadExceptOf.throw] at checked

theorem Valid.isPositive_fetch {config : Json} (valid : Valid config) {name : String}
    (named : name ∈ fetchNames) {default : Int} (positive : 0 < default) :
    isPositive (setting config "fetch" name default) = true := by
  unfold setting
  cases found : (part config "fetch").field? name with
  | none => exact decide_eq_true positive
  | some v => exact isPositive_of_checkFetch (valid.fetch name named) found

end CodeDeck.Config
