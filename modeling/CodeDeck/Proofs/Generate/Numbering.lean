import CodeDeck.Proofs.Generate
import Mathlib.Data.List.Forall2
import Mathlib.Data.List.Nodup

/-! The ids of cards. An id tells the index and the name it was made of, although the name may hold hyphens and digits;
so the cards of a list of blocks have ids of their own, and a smaller limit leaves the first cards as they are. -/

namespace CodeDeck.Generate

open CodeDeck.Text

theorem toString_inj {i j : Nat} (same : (toString i).toList = (toString j).toList) : i = j := by
  have values := congrArg (Nat.ofDigitChars 10 · 0) same
  simpa only [Nat.toString_eq_ofList_toDigits, String.toList_ofList, Nat.ofDigitChars_ten_toDigits] using values

theorem hyphen_notMem_toString (index : Nat) : '-' ∉ (toString index).toList := by
  intro member
  rw [Nat.toString_eq_ofList_toDigits, String.toList_ofList] at member
  exact absurd (Nat.isDigit_of_mem_toDigits (by decide) (by decide) member) (by decide)

theorem toList_cardId (index : Nat) (name : String) :
    (cardId index name).toList = "gen-".toList ++ ((toString index).toList ++ '-' :: name.toList) := by
  simp [cardId, String.toList_append]

theorem cardId_inj {i j : Nat} {m n : String} : cardId i m = cardId j n ↔ i = j ∧ m = n := by
  constructor
  · intro same
    have texts := congrArg String.toList same
    rw [toList_cardId, toList_cardId] at texts
    obtain ⟨index, name⟩ :=
      append_separator_inj (hyphen_notMem_toString i) (hyphen_notMem_toString j) (List.append_cancel_left texts)
    exact ⟨toString_inj index, String.toList_inj.1 name⟩
  · rintro ⟨rfl, rfl⟩
    rfl

section Cards

variable {blocks : List Block} {made : List Card} {index : Nat}

theorem cardsFrom_eq_ok_iff :
    cardsFrom index blocks = .ok made ↔
      List.Forall₂ (fun numbered c => card numbered.2 numbered.1 = .ok c) (blocks.zipIdx index) made := by
  induction blocks generalizing index made with
  | nil => simp [cardsFrom, eq_comm]
  | cons b rest ih => simp only [cardsFrom_cons_eq_ok_iff, ih, List.zipIdx_cons, List.forall₂_cons_left_iff]

theorem cardsFrom_take (all : cardsFrom index blocks = .ok made) (n : Nat) :
    cardsFrom index (blocks.take n) = .ok (made.take n) := by
  have numbered : (blocks.take n).zipIdx index = (blocks.zipIdx index).take n := by
    apply List.ext_getElem?
    intro i
    simp only [List.getElem?_zipIdx, List.getElem?_take]
    split <;> rfl
  rw [cardsFrom_eq_ok_iff] at all ⊢
  rw [numbered]
  exact List.forall₂_take n all

theorem map_id_of_cardsFrom (all : cardsFrom index blocks = .ok made) :
    made.map Card.id = (blocks.zipIdx index).map fun numbered => .str (cardId numbered.2 numbered.1.name) := by
  rw [cardsFrom_eq_ok_iff] at all
  have ids := all.imp fun numbered c own => (fields_of_card own).1.symm
  rw [← List.forall₂_eq_eq_eq, List.forall₂_map_left_iff, List.forall₂_map_right_iff]
  exact ids.flip.imp fun c numbered same => same.symm

theorem nodup_id_of_cardsFrom (all : cardsFrom index blocks = .ok made) : (made.map Card.id).Nodup := by
  rw [map_id_of_cardsFrom all, List.Nodup, List.pairwise_map]
  have apart : ((blocks.zipIdx index).map Prod.snd).Nodup := by
    rw [List.zipIdx_map_snd]
    exact List.nodup_range'
  apply (List.pairwise_map.1 apart).imp
  intro numbered other different same
  exact different (cardId_inj.1 (Json.str.inj same)).1

end Cards

/-- Each block has its card, made of it under the number of its place, and no two cards have the same id. -/
structure IsNumbered (blocks : List Block) (made : List Card) : Prop where
  length : made.length = blocks.length
  each : ∀ index b, blocks[index]? = some b →
    ∃ c, made[index]? = some c ∧ card index b = .ok c ∧ c.id = .str (cardId index b.name)
  distinct : (made.map Card.id).Nodup

theorem isNumbered_of_cardsFrom {blocks : List Block} {made : List Card} (all : cardsFrom 0 blocks = .ok made) :
    IsNumbered blocks made where
  length := (cards_of_cardsFrom all).1
  each := by
    intro index b stands
    have pairs := cardsFrom_eq_ok_iff.1 all
    obtain ⟨place, same⟩ := List.getElem?_eq_some_iff.1 stands
    have placed : index < made.length := (cards_of_cardsFrom all).1 ▸ place
    have own := (List.forall₂_iff_get.1 pairs).2 index (by rwa [List.length_zipIdx]) placed
    simp only [List.get_eq_getElem, List.getElem_zipIdx, Nat.zero_add, same] at own
    exact ⟨made[index], List.getElem?_eq_getElem placed, own, (fields_of_card own).1⟩
  distinct := nodup_id_of_cardsFrom all

/-- The blocks up to a limit get cards exactly when there is something to say about each of them; these are numbered,
and a smaller limit yields the first of them. -/
theorem exists_cards_iff (blocks : List Block) (limit : Nat) :
    (∀ b ∈ blocks.take limit, b.IsExplained) ↔
      ∃ made, cards blocks (some (limit : Int)) = .ok made ∧ made.length = min limit blocks.length ∧
        IsNumbered (blocks.take limit) made ∧
        ∀ less ≤ limit, cards blocks (some (less : Int)) = .ok (made.take less) := by
  have upTo (n : Nat) : cards blocks (some (n : Int)) = cardsFrom 0 (blocks.take n) := by rw [cards, upTo_natCast]
  rw [← exists_cardsFrom_iff 0]
  constructor
  · rintro ⟨made, all⟩
    refine ⟨made, (upTo limit).trans all, ?_, isNumbered_of_cardsFrom all, ?_⟩
    · rw [(cards_of_cardsFrom all).1, List.length_take]
    · intro less within
      rw [upTo, ← cardsFrom_take all less, List.take_take, Nat.min_eq_left within]
  · rintro ⟨made, all, -⟩
    exact ⟨made, (upTo limit).symm.trans all⟩

/-- An id tells its index and its name. Blocks of the kinds that there are get cards up to any limit; these are numbered,
and a smaller limit yields the first of them. -/
theorem cards_numbered :
    (∀ i j m n, cardId i m = cardId j n ↔ i = j ∧ m = n) ∧
      ∀ (blocks : List Block) (limit : Nat), (∀ b ∈ blocks, b.kind ∈ BlockKind.known) →
        ∃ made, cards blocks (some (limit : Int)) = .ok made ∧ made.length = min limit blocks.length ∧
          IsNumbered (blocks.take limit) made ∧
          ∀ less ≤ limit, cards blocks (some (less : Int)) = .ok (made.take less) := by
  refine ⟨fun i j m n => cardId_inj, fun blocks limit known => (exists_cards_iff blocks limit).1 ?_⟩
  exact fun b member => .inr (known b (List.mem_of_mem_take member))

def twins : List Block :=
  [⟨"1-dup", .function, "a", "a.ts", "typescript", none, 1⟩, ⟨"1-dup", .type, "b", "a.ts", "typescript", none, 1⟩]

theorem twins_numbered :
    (∀ b ∈ twins, b.kind ∈ BlockKind.known) ∧
      ∃ made, cards twins (some ((2 : Nat) : Int)) = .ok made ∧ made.length = min 2 twins.length ∧
        IsNumbered (twins.take 2) made ∧
        ∀ less : Nat, less ≤ 2 → cards twins (some (less : Int)) = .ok (made.take less) := by
  have known : ∀ b ∈ twins, b.kind ∈ BlockKind.known := by decide
  exact ⟨known, cards_numbered.2 twins 2 known⟩

end CodeDeck.Generate
