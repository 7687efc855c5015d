import CodeDeck.Json.Basic
import CodeDeck.Number.Numeral
import CodeDeck.Text.Loose

/-!
What can be written: whole numbers of very many digits cannot, wherever they stand in a value, and a
surrogate that stands alone cannot be encoded.
-/

namespace CodeDeck.Json

open CodeDeck.Number CodeDeck.Text

section Whole

variable {τ : Type} (p : Int → Bool)

mutual

def allWhole : Json τ → Bool
  | int n => p n
  | arr items => allWholeItems items
  | obj fields => allWholeFields fields
  | null => true
  | bool _ => true
  | real _ => true
  | str _ => true

def allWholeItems : List (Json τ) → Bool
  | [] => true
  | item :: rest => allWhole item && allWholeItems rest

def allWholeFields : List (τ × Json τ) → Bool
  | [] => true
  | (_, value) :: rest => allWhole value && allWholeFields rest

end

end Whole

theorem allWhole_arr (items : List (Json τ)) : (arr items).allWhole p = items.all (allWhole p) := by
  rw [allWhole]
  induction items with
  | nil => rfl
  | cons item rest ih => rw [allWholeItems, ih, List.all_cons]

theorem allWhole_obj (fields : List (τ × Json τ)) :
    (obj fields).allWhole p = fields.all fun field => field.2.allWhole p := by
  rw [allWhole]
  induction fields with
  | nil => rfl
  | cons field rest ih => rw [allWholeFields, ih, List.all_cons]

mutual

theorem allWhole_mono {p q : Int → Bool} (weaker : ∀ n, p n = true → q n = true) :
    (v : Json τ) → v.allWhole p = true → v.allWhole q = true
  | int n, held => weaker n held
  | arr items, held => allWholeItems_mono weaker items held
  | obj fields, held => allWholeFields_mono weaker fields held
  | null, _ => rfl
  | bool _, _ => rfl
  | real _, _ => rfl
  | str _, _ => rfl

theorem allWholeItems_mono {p q : Int → Bool} (weaker : ∀ n, p n = true → q n = true) :
    (items : List (Json τ)) → allWholeItems p items = true → allWholeItems q items = true
  | [], _ => rfl
  | item :: rest, held => by
    rw [allWholeItems, Bool.and_eq_true] at held ⊢
    exact ⟨allWhole_mono weaker item held.1, allWholeItems_mono weaker rest held.2⟩

theorem allWholeFields_mono {p q : Int → Bool} (weaker : ∀ n, p n = true → q n = true) :
    (fields : List (τ × Json τ)) → allWholeFields p fields = true → allWholeFields q fields = true
  | [], _ => rfl
  | (_, value) :: rest, held => by
    rw [allWholeFields, Bool.and_eq_true] at held ⊢
    exact ⟨allWhole_mono weaker value held.1, allWholeFields_mono weaker rest held.2⟩

end

def isWritable {τ : Type} (v : Json τ) : Bool := v.allWhole fun n => fitsDigits maxDigits n.natAbs

mutual

/-- The value with its texts as sequences of code points. -/
def loose : Json → Json LooseText
  | null => null
  | bool b => bool b
  | int n => int n
  | real x => real x
  | str s => str (.ofString s)
  | arr items => arr (looseItems items)
  | obj fields => obj (looseFields fields)

def looseItems : List Json → List (Json LooseText)
  | [] => []
  | item :: rest => loose item :: looseItems rest

def looseFields : List (String × Json) → List (LooseText × Json LooseText)
  | [] => []
  | (name, value) :: rest => (.ofString name, loose value) :: looseFields rest

end

mutual

def encoded? : Json LooseText → Option Json
  | null => some null
  | bool b => some (bool b)
  | int n => some (int n)
  | real x => some (real x)
  | str s => s.string?.map str
  | arr items => (encodedItems? items).map arr
  | obj fields => (encodedFields? fields).map obj

def encodedItems? : List (Json LooseText) → Option (List Json)
  | [] => some []
  | item :: rest => do
    let first ← encoded? item
    let others ← encodedItems? rest
    return first :: others

def encodedFields? : List (LooseText × Json LooseText) → Option (List (String × Json))
  | [] => some []
  | (name, value) :: rest => do
    let name ← name.string?
    let first ← encoded? value
    let others ← encodedFields? rest
    return (name, first) :: others

end

mutual

theorem eq_loose_of_encoded? : {v : Json LooseText} → {row : Json} → v.encoded? = some row → v = row.loose
  | null, _, read => by
    obtain rfl := Option.some.inj read
    rfl
  | bool _, _, read => by
    obtain rfl := Option.some.inj read
    rfl
  | int _, _, read => by
    obtain rfl := Option.some.inj read
    rfl
  | real _, _, read => by
    obtain rfl := Option.some.inj read
    rfl
  | str s, _, read => by
    obtain ⟨text, encoded, rfl⟩ := Option.map_eq_some_iff.1 read
    rw [loose, LooseText.string?_eq_some_iff.1 encoded]
  | arr items, _, read => by
    obtain ⟨rows, encoded, rfl⟩ := Option.map_eq_some_iff.1 read
    rw [loose, eq_loose_of_encodedItems? encoded]
  | obj fields, _, read => by
    obtain ⟨rows, encoded, rfl⟩ := Option.map_eq_some_iff.1 read
    rw [loose, eq_loose_of_encodedFields? encoded]

theorem eq_loose_of_encodedItems? : {items : List (Json LooseText)} → {rows : List Json} →
    encodedItems? items = some rows → items = looseItems rows
  | [], _, read => by
    obtain rfl := Option.some.inj read
    rfl
  | item :: rest, _, read => by
    obtain ⟨first, encoded, read⟩ := Option.bind_eq_some_iff.1 read
    obtain ⟨others, later, read⟩ := Option.bind_eq_some_iff.1 read
    obtain rfl := Option.some.inj read
    rw [looseItems, eq_loose_of_encoded? encoded, eq_loose_of_encodedItems? later]

theorem eq_loose_of_encodedFields? : {fields : List (LooseText × Json LooseText)} → {rows : List (String × Json)} →
    encodedFields? fields = some rows → fields = looseFields rows
  | [], _, read => by
    obtain rfl := Option.some.inj read
    rfl
  | (name, value) :: rest, _, read => by
    obtain ⟨text, named, read⟩ := Option.bind_eq_some_iff.1 read
    obtain ⟨first, encoded, read⟩ := Option.bind_eq_some_iff.1 read
    obtain ⟨others, later, read⟩ := Option.bind_eq_some_iff.1 read
    obtain rfl := Option.some.inj read
    rw [looseFields, LooseText.string?_eq_some_iff.1 named, eq_loose_of_encoded? encoded,
      eq_loose_of_encodedFields? later]

end

end CodeDeck.Json
