/-!
Texts in which a surrogate may stand alone, as an escape in JSON can put it there. Such a text has no
encoding.
-/

namespace CodeDeck.Text

inductive CodePoint where
  | scalar (c : Char)
  /-- One of the 2048 halves of pairs. -/
  | surrogate (half : Fin 0x800)
  deriving DecidableEq, Repr

def CodePoint.shown : CodePoint → Char
  | scalar c => c
  | surrogate _ => Char.ofNat 0xFFFD

abbrev LooseText := List CodePoint

namespace LooseText

def ofString (s : String) : LooseText := s.toList.map .scalar

def chars? : LooseText → Option (List Char)
  | [] => some []
  | .scalar c :: rest => (chars? rest).map (c :: ·)
  | .surrogate _ :: _ => none

def string? (s : LooseText) : Option String := s.chars?.map String.ofList

theorem chars?_map_scalar (chars : List Char) : chars? (chars.map .scalar) = some chars := by
  induction chars with
  | nil => rfl
  | cons c rest ih => rw [List.map_cons, chars?, ih, Option.map_some]

theorem eq_of_chars? {s : LooseText} {chars : List Char} (read : s.chars? = some chars) :
    s = chars.map .scalar := by
  induction s generalizing chars with
  | nil =>
    obtain rfl : [] = chars := Option.some.inj read
    rfl
  | cons point rest ih =>
    cases point with
    | scalar c =>
      obtain ⟨later, inside, rfl⟩ := Option.map_eq_some_iff.1 read
      rw [ih inside, List.map_cons]
    | surrogate half => exact nomatch read

theorem string?_eq_some_iff {s : LooseText} {t : String} : s.string? = some t ↔ s = ofString t := by
  constructor
  · intro read
    obtain ⟨chars, inside, rfl⟩ := Option.map_eq_some_iff.1 read
    rw [ofString, String.toList_ofList]
    exact eq_of_chars? inside
  · rintro rfl
    rw [string?, ofString, chars?_map_scalar, Option.map_some, String.ofList_toList]

end LooseText

/-- The texts that a reader can make of code points. -/
class OfPoints (τ : Type) where
  ofPoints : List CodePoint → τ

instance : OfPoints LooseText := ⟨id⟩

instance : OfPoints String := ⟨fun points => String.ofList (points.map CodePoint.shown)⟩

end CodeDeck.Text
