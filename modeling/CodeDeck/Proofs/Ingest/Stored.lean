import CodeDeck.Ingest
import CodeDeck.Proofs.Json
import CodeDeck.Store.Table

/-! Cards as they are read back from a table. They depend on the value under the key of their repository
alone, and the difficulty of each is a whole number. -/

namespace CodeDeck

theorem Card.level_of_ofJson {v : Json} {c : Card} (read : ofJson v = .ok c) :
    ∃ n, c.difficulty = .int n := by
  unfold ofJson at read
  obtain ⟨_, _, read⟩ := ok_of_bind read
  obtain ⟨_, _, read⟩ := ok_of_bind read
  obtain ⟨_, _, read⟩ := ok_of_bind read
  obtain ⟨_, _, read⟩ := ok_of_bind read
  obtain ⟨_, _, read⟩ := ok_of_bind read
  obtain ⟨_, _, read⟩ := ok_of_bind read
  obtain ⟨_, _, read⟩ := ok_of_bind read
  obtain ⟨_, _, read⟩ := ok_of_bind read
  obtain ⟨level, _, read⟩ := ok_of_bind read
  exact ⟨level, congrArg Card.difficulty (Except.ok.inj read).symm⟩

namespace Ingest

theorem level_of_readCards {values : List Json} {cards : List Card}
    (read : readCards values = .ok cards) : ∀ c ∈ cards, ∃ n, c.difficulty = .int n := by
  induction values generalizing cards with
  | nil =>
    obtain rfl : [] = cards := Except.ok.inj read
    simp
  | cons v rest ih =>
    obtain ⟨first, readFirst, read⟩ := ok_of_bind read
    obtain ⟨others, readOthers, read⟩ := ok_of_bind read
    obtain rfl : first :: others = cards := Except.ok.inj read
    intro c member
    rcases List.mem_cons.1 member with rfl | later
    · exact Card.level_of_ofJson readFirst
    · exact ih readOthers c later

theorem level_of_loadCards {table : Table} {fullName : String} {cards : List Card}
    (loaded : loadCards table fullName = .ok cards) : ∀ c ∈ cards, ∃ n, c.difficulty = .int n := by
  obtain ⟨v, _, read⟩ := ok_of_bind loaded
  unfold cardsOf at read
  split at read
  · obtain ⟨items, _, read⟩ := ok_of_bind read
    exact level_of_readCards read
  · obtain rfl : [] = cards := Except.ok.inj read
    simp

theorem loadCards_congr {table other : Table} {fullName : String}
    (same : table.get? (Key.cards fullName) = other.get? (Key.cards fullName)) :
    loadCards table fullName = loadCards other fullName := by
  simp only [loadCards, KeyValueStore.read, KeyValueStore.get?, same]

theorem readCards_toJson {cards : List Card} (levels : ∀ c ∈ cards, ∃ level, c.difficulty = .int level) :
    readCards (cards.map Card.toJson) = .ok cards := by
  induction cards with
  | nil => rfl
  | cons c rest ih =>
    obtain ⟨level, whole⟩ := levels c List.mem_cons_self
    have others := ih fun other member => levels other (List.mem_cons_of_mem _ member)
    simp only [List.map_cons, readCards, Card.ofJson_toJson whole, others]
    rfl

theorem loadCards_of_written {table : Table} {fullName : String} {cards : List Card}
    (written : table.get? (Key.cards fullName) = some (.arr (cards.map Card.toJson)))
    (levels : ∀ c ∈ cards, ∃ level, c.difficulty = .int level) : loadCards table fullName = .ok cards := by
  have found : KeyValueStore.read table (Key.cards fullName) = .ok (.arr (cards.map Card.toJson)) := by
    simp only [KeyValueStore.read, KeyValueStore.get?, written]
    rfl
  rw [loadCards, found]
  -- an empty list counts as no value, and is read as no cards all the same
  cases cards with
  | nil => rfl
  | cons c rest => exact readCards_toJson levels

end Ingest

end CodeDeck
