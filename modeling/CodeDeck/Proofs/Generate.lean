import CodeDeck.Generate
import CodeDeck.Proofs.Extract.Cut
import CodeDeck.Proofs.Json
import CodeDeck.Proofs.Json.Limits

/-! Ranked blocks and their cards. Ranking makes no blocks and loses none but doubles, and the blocks of
files are of kinds that can be explained, so that each of them gets its card. -/

namespace CodeDeck

open CodeDeck.Text

def BlockKind.known : List BlockKind := [.function, .type, .concept, .pattern, .file]

namespace Block

/-- Is there something to say about the block: its documentation, or the sentence of its kind? -/
def IsExplained (b : Block) : Prop := b.doc?.isSome = true ∨ b.kind ∈ BlockKind.known

instance (b : Block) : Decidable b.IsExplained := inferInstanceAs (Decidable (_ ∨ _))

theorem isExplained_of_limited {b : Block} (limited : ∃ limit, (b.kind, limit) ∈ ceilings) : b.IsExplained := by
  obtain ⟨limit, member⟩ := limited
  have kinds : ceilings.map Prod.fst = BlockKind.known := rfl
  exact .inr (kinds ▸ List.mem_map_of_mem member)

end Block

namespace Generate

theorem upTo_natCast {α : Type} (n : Nat) (items : List α) : upTo (some (n : Int)) items = items.take n := by
  rw [upTo, resolveOffset_natCast, List.take_eq_take_iff]
  omega

theorem exists_explanation_iff {b : Block} : (∃ text, explanation b = .ok text) ↔ b.IsExplained := by
  unfold explanation Block.IsExplained
  cases b.doc? with
  | some doc => simp
  | none => cases b.kind <;> simp [standardExplanation, BlockKind.known]

theorem exists_card_iff {b : Block} (index : Nat) : (∃ made, card index b = .ok made) ↔ b.IsExplained := by
  rw [← exists_explanation_iff, card]
  cases explanation b with
  | error fault => simp [Except.map]
  | ok text => simp [Except.map]

theorem cardsFrom_cons_eq_ok_iff {index : Nat} {b : Block} {rest : List Block} {made : List Card} :
    cardsFrom index (b :: rest) = .ok made ↔
      ∃ first others, card index b = .ok first ∧ cardsFrom (index + 1) rest = .ok others ∧ made = first :: others := by
  constructor
  · intro all
    obtain ⟨first, madeFirst, all⟩ := ok_of_bind all
    obtain ⟨others, madeOthers, all⟩ := ok_of_bind all
    exact ⟨first, others, madeFirst, madeOthers, (Except.ok.inj all).symm⟩
  · rintro ⟨first, others, madeFirst, madeOthers, rfl⟩
    simp only [cardsFrom, madeFirst, madeOthers]
    rfl

theorem exists_cardsFrom_iff {blocks : List Block} (index : Nat) :
    (∃ made, cardsFrom index blocks = .ok made) ↔ ∀ b ∈ blocks, b.IsExplained := by
  induction blocks generalizing index with
  | nil => simp [cardsFrom]
  | cons b rest ih =>
    rw [List.forall_mem_cons, ← exists_card_iff index, ← ih (index + 1)]
    constructor
    · rintro ⟨made, all⟩
      obtain ⟨first, others, madeFirst, madeOthers, -⟩ := cardsFrom_cons_eq_ok_iff.1 all
      exact ⟨⟨first, madeFirst⟩, others, madeOthers⟩
    · rintro ⟨⟨first, madeFirst⟩, others, madeOthers⟩
      exact ⟨first :: others, cardsFrom_cons_eq_ok_iff.2 ⟨first, others, madeFirst, madeOthers, rfl⟩⟩

theorem fields_of_card {index : Nat} {b : Block} {c : Card} (made : card index b = .ok c) :
    c.id = .str (cardId index b.name) ∧ c.difficulty = .int (difficulty b) := by
  unfold card at made
  cases told : explanation b with
  | error fault =>
    rw [told] at made
    contradiction
  | ok text =>
    rw [told] at made
    rw [← Except.ok.inj made]
    exact ⟨rfl, rfl⟩

theorem difficulty_le_three (b : Block) : (difficulty b).natAbs ≤ 3 := by
  unfold difficulty difficultyOf
  split
  · decide
  · split <;> decide

theorem isWritable_of_card {index : Nat} {b : Block} {c : Card} (made : card index b = .ok c) :
    c.toJson.isWritable = true := by
  have level : (Json.int (difficulty b) : Json).isWritable = true :=
    Json.isWritable_int_of_lt_ten (Nat.lt_of_le_of_lt (difficulty_le_three b) (by decide))
  unfold card at made
  cases told : explanation b with
  | error fault =>
    rw [told] at made
    contradiction
  | ok text =>
    rw [told] at made
    rw [← Except.ok.inj made]
    refine Json.isWritable_obj.2 ?_
    simp only [Card.fields, List.forall_mem_cons, List.not_mem_nil, false_implies, implies_true, and_true]
    exact ⟨rfl, rfl, rfl, rfl, rfl, rfl, rfl, level⟩

theorem cards_of_cardsFrom {blocks : List Block} {index : Nat} {made : List Card}
    (all : cardsFrom index blocks = .ok made) :
    made.length = blocks.length ∧ ∀ c ∈ made, ∃ place b, card place b = .ok c := by
  induction blocks generalizing index made with
  | nil =>
    obtain rfl : [] = made := Except.ok.inj all
    simp
  | cons b rest ih =>
    obtain ⟨first, others, madeFirst, madeOthers, rfl⟩ := cardsFrom_cons_eq_ok_iff.1 all
    obtain ⟨many, each⟩ := ih madeOthers
    constructor
    · rw [List.length_cons, List.length_cons, many]
    · intro c member
      rcases List.mem_cons.1 member with rfl | later
      · exact ⟨index, b, madeFirst⟩
      · exact each c later

section Files

variable {files : List SourceFile} {limit : Json} {made : List Card}

theorem cardsFrom_of_ofFiles (all : ofFiles files limit = .ok made) :
    Rank.rank (Rank.candidates files) ≠ [] ∧
      ∃ bound, limit.asBound = .ok bound ∧
        cardsFrom 0 (upTo bound (Rank.rank (Rank.candidates files))) = .ok made := by
  unfold ofFiles at all
  split at all
  · contradiction
  · next ranked some =>
    obtain ⟨bound, known, all⟩ := ok_of_bind all
    exact ⟨some, bound, known, all⟩

/-- A generated card can be looked up by its id, its difficulty is a whole number, and all of it can be written. -/
theorem card_of_ofFiles (all : ofFiles files limit = .ok made) :
    ∀ c ∈ made, c.id.isKey = true ∧ (∃ level, c.difficulty = .int level) ∧ c.toJson.isWritable = true := by
  obtain ⟨_, _, _, all⟩ := cardsFrom_of_ofFiles all
  intro c member
  obtain ⟨place, b, own⟩ := (cards_of_cardsFrom all).2 c member
  obtain ⟨id, level⟩ := fields_of_card own
  exact ⟨by rw [id, Json.isKey_str], ⟨_, level⟩, isWritable_of_card own⟩

theorem length_of_ofFiles (all : ofFiles files limit = .ok made) {n : Nat} (whole : limit.whole? = some (n : Int))
    (positive : 0 < n) : made ≠ [] ∧ made.length ≤ n := by
  obtain ⟨some, bound, known, all⟩ := cardsFrom_of_ofFiles all
  obtain rfl : bound = .some (n : Int) := Except.ok.inj (known.symm.trans (Json.asBound_of_whole? whole))
  rw [upTo_natCast] at all
  have many := (cards_of_cardsFrom all).1
  have ranked := List.length_pos_iff.2 some
  rw [List.length_take] at many
  refine ⟨List.length_pos_iff.1 ?_, ?_⟩ <;> omega

end Files

end Generate

namespace Rank

theorem mem_of_mem_rank {blocks : List Block} {b : Block} (member : b ∈ rank blocks) : b ∈ blocks :=
  (firsts_sublist label [] blocks).mem ((rank_perm blocks).mem_iff.1 member)

theorem rank_eq_nil_iff {blocks : List Block} : rank blocks = [] ↔ blocks = [] := by
  refine ⟨fun none => ?_, fun none => by simp [none, rank, firsts, byScore]⟩
  cases blocks with
  | nil => rfl
  | cons b rest =>
    have same := rank_perm (b :: rest)
    rw [none] at same
    simp [firsts, List.nil_perm] at same

theorem isExplained_of_mem_candidates {files : List SourceFile} {b : Block} (member : b ∈ candidates files) :
    b.IsExplained := by
  obtain ⟨file, _, found⟩ := List.mem_flatMap.1 member
  exact Block.isExplained_of_limited (Extract.limited_of_mem_blocks found)

end Rank

end CodeDeck
