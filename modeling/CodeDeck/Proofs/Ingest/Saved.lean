import CodeDeck.Ingest
import CodeDeck.Proofs.Json.Limits
import CodeDeck.Proofs.Recent
import CodeDeck.Proofs.Streak.Tally

/-! What is stored of an ingestion. A repository without a text for its name is refused before anything is
written; with one, none of the three writes can fail on a store whose visits and streak are as they are written, as long
as one more repository can be counted. -/

namespace CodeDeck

open CodeDeck.Text

/-- The store holds the visits and the streak in the form in which they are written. -/
structure IsKept {σ : Type} [KeyValueStore σ] (store : σ) : Prop where
  recent : ∃ visits, Recent.HeldBy visits store ∧ (Json.arr visits).isWritable = true
  streak : ∃ tally : Streak.Tally, tally.HeldBy store ∧ tally.streak.toJson.isWritable = true

/-- The count of repositories that the store holds, and one more, can be written. -/
def HasRoom {σ : Type} [KeyValueStore σ] (store : σ) : Prop :=
  ∀ tally : Streak.Tally, tally.HeldBy store → (Json.int (tally.repos + 1) : Json).isWritable = true

theorem IsKept.of_same {σ : Type} [KeyValueStore σ] {store other : σ} (kept : IsKept store)
    (recent : KeyValueStore.get? other Key.recent = KeyValueStore.get? store Key.recent)
    (streak : KeyValueStore.get? other Key.streak = KeyValueStore.get? store Key.streak) : IsKept other := by
  obtain ⟨⟨visits, visited, listed⟩, tally, told, counted⟩ := kept
  exact ⟨⟨visits, visited.of_same recent, listed⟩, tally, told.of_same streak, counted⟩

namespace Ingest

variable {σ : Type} [KeyValueStore σ]

theorem save_of_unnamed {found : Result} (unnamed : found.info.fullName.text? = none) (store : σ) (now : Int)
    (today : Date) :
    save store found now today = (.error (.noMember found.info.fullName.kind "lower"), store) := by
  unfold save
  cases named : found.info.fullName with
  | str fullName => simp [named, Json.text?] at unnamed
  | _ => rfl

theorem field?_recentEntry (fullName : String) (found : Result) :
    (recentEntry fullName found).field? "full_name" = some (.str fullName) := rfl

structure Result.IsWritable (found : Result) : Prop where
  cards : ∀ c ∈ found.cards, c.toJson.isWritable = true
  count : (Json.int found.cards.length : Json).isWritable = true
  description : found.info.description.isWritable = true
  stars : found.info.stars.isWritable = true

theorem Result.IsWritable.entry {found : Result} (writable : found.IsWritable) (fullName : String) :
    (recentEntry fullName found).isWritable = true := by
  have description : (if found.info.description.truthy then found.info.description else .str "").isWritable = true := by
    split
    · exact writable.description
    · rfl
  refine Json.isWritable_obj.2 ?_
  simp only [List.forall_mem_cons, List.not_mem_nil, false_implies, implies_true, and_true]
  exact ⟨rfl, rfl, rfl, description, writable.stars, writable.count⟩

theorem Result.IsWritable.list {found : Result} (writable : found.IsWritable) :
    (Json.arr (found.cards.map Card.toJson)).isWritable = true :=
  Json.isWritable_arr.2 (List.forall_mem_map.2 writable.cards)

/-- The store behind the first two of the three writes. -/
def noted (store : σ) (fullName : String) (cards : List Card) (visits : List Json) : σ :=
  Recent.written visits (KeyValueStore.set store (Key.cards fullName) (.arr (cards.map Card.toJson))).2

def stored (store : σ) (fullName : String) (cards : List Card) (visits : List Json) (tally : Streak.Tally) : σ :=
  tally.written (noted store fullName cards visits)

variable [ReliableStore σ]

section Stored

variable (store : σ) (fullName : String) (cards : List Card) (visits : List Json) (tally : Streak.Tally)

theorem get?_noted_of_ne {key : String} (notCards : key ≠ Key.cards fullName) (notRecent : key ≠ Key.recent) :
    KeyValueStore.get? (noted store fullName cards visits) key = KeyValueStore.get? store key := by
  unfold noted Recent.written
  rw [ReliableStore.get?_set_of_ne _ notRecent, ReliableStore.get?_set_of_ne _ notCards]

theorem get?_stored_of_ne {key : String} (notCards : key ≠ Key.cards fullName) (notRecent : key ≠ Key.recent)
    (notStreak : key ≠ Key.streak) :
    KeyValueStore.get? (stored store fullName cards visits tally) key = KeyValueStore.get? store key := by
  unfold stored Streak.Tally.written
  rw [ReliableStore.get?_set_of_ne _ notStreak, get?_noted_of_ne store fullName cards visits notCards notRecent]

variable (taken : (KeyValueStore.set store (Key.cards fullName) (.arr (cards.map Card.toJson))).1 = .ok ())
include taken

theorem get?_noted_cards :
    KeyValueStore.get? (noted store fullName cards visits) (Key.cards fullName) =
      .ok (some (.arr (cards.map Card.toJson))) := by
  unfold noted Recent.written
  rw [ReliableStore.get?_set_of_ne _ (Key.cards_ne_recent fullName), ReliableStore.get?_set_self _ taken]

theorem get?_stored_cards :
    KeyValueStore.get? (stored store fullName cards visits tally) (Key.cards fullName) =
      .ok (some (.arr (cards.map Card.toJson))) := by
  unfold stored Streak.Tally.written
  rw [ReliableStore.get?_set_of_ne _ (Key.cards_ne_streak fullName), get?_noted_cards store fullName cards visits taken]

end Stored

section Saving

variable {found : Result} {fullName : String} (named : found.info.fullName = .str fullName)
  (writable : found.IsWritable) (takes : KeyValueStore.TakesWritable σ) {store : σ} {now : Int}
  (clock : (Json.int now : Json).isWritable = true) {today : Date}
include named writable takes clock

theorem save_eq {visits : List Json} (visited : Recent.HeldBy visits store)
    (listed : (Json.arr visits).isWritable = true) (today : Date) :
    ∃ updated : List Json, Recent.HeldBy updated (noted store fullName found.cards updated) ∧
      (Json.arr updated).isWritable = true ∧
      save store found now today =
        ((Streak.recordRepo (noted store fullName found.cards updated) today).1.map fun _ => (),
          (Streak.recordRepo (noted store fullName found.cards updated) today).2) := by
  let cards := Json.arr (found.cards.map Card.toJson)
  have visited' : Recent.HeldBy visits (KeyValueStore.set store (Key.cards fullName) cards).2 :=
    visited.of_same (ReliableStore.get?_set_of_ne store (Key.cards_ne_recent fullName).symm cards)
  obtain ⟨updated, added, visitsKept, listed'⟩ :=
    visited'.add takes listed (field?_recentEntry fullName found) (writable.entry fullName) clock
  refine ⟨updated, visitsKept, listed', ?_⟩
  unfold save
  simp only [named]
  rw [KeyValueStore.set_eq (takes _ _ _ writable.list)]
  simp only
  rw [added]
  rfl

theorem save_of_named (kept : IsKept store) (room : HasRoom store) (valid : today.Valid)
    (later : 1 < today.number) :
    ∃ visits tally, save store found now today =
        (.ok (), stored store fullName found.cards visits tally) ∧
      IsKept (stored store fullName found.cards visits tally) := by
  obtain ⟨⟨visits, visited, listed⟩, tally, told, counted⟩ := kept
  obtain ⟨updated, visitsKept, listed', saved⟩ := save_eq named writable takes clock visited listed today
  have told' : tally.HeldBy (noted store fullName found.cards updated) :=
    told.of_same (get?_noted_of_ne store _ _ _ (Key.cards_ne_streak fullName).symm Key.recent_ne_streak.symm)
  have counted' := (Streak.Tally.isWritable_withRepo_iff counted today).2 (room tally told)
  obtain ⟨recorded, streakKept⟩ := told'.recordRepo valid later (takes _ _ _ counted')
  refine ⟨updated, (tally.onDay today).withRepo, ?_, ⟨updated, ?_, listed'⟩, _, streakKept, counted'⟩
  · rw [saved, recorded]
    rfl
  · exact visitsKept.of_same (ReliableStore.get?_set_of_ne _ Key.recent_ne_streak _)

end Saving

/-- Where one more repository cannot be counted, cards and visit are stored all the same. -/
theorem save_of_full {found : Result} {fullName : String} (named : found.info.fullName = .str fullName)
    (writable : found.IsWritable) {t : Table} {visits : List Json} (visited : Recent.HeldBy visits t)
    (listed : (Json.arr visits).isWritable = true) {tally : Streak.Tally} (told : tally.HeldBy t)
    (counted : tally.streak.toJson.isWritable = true) (full : (Json.int (tally.repos + 1) : Json).isWritable = false) {now : Int}
    (clock : (Json.int now : Json).isWritable = true) {today : Date} (valid : today.Valid) (later : 1 < today.number) :
    ∃ updated, save t found now today = (.error .unwritableNumber, noted t fullName found.cards updated) := by
  obtain ⟨updated, _, _, saved⟩ := save_eq named writable Table.taken_of_isWritable clock visited listed today
  have told' : tally.HeldBy (noted t fullName found.cards updated) :=
    told.of_same (get?_noted_of_ne t _ _ _ (Key.cards_ne_streak fullName).symm Key.recent_ne_streak.symm)
  have unwritable : (tally.onDay today).withRepo.streak.toJson.isWritable = false := by
    rw [Bool.eq_false_iff, Ne, Streak.Tally.isWritable_withRepo_iff counted, full]
    exact Bool.noConfusion
  have refused : Streak.recordRepo (noted t fullName found.cards updated) today =
      (.error .unwritableNumber, noted t fullName found.cards updated) :=
    told'.update_refused valid later (Streak.Tally.streak_addRepo _) unwritable
  exact ⟨updated, by rw [saved, refused]; rfl⟩

end Ingest

end CodeDeck
