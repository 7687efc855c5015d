import CodeDeck.Assoc
import CodeDeck.Number.Binary64

/-!
JSON values, with texts of the type `τ`. Whole numbers are unbounded and differ from the others; an object
keeps its fields in order, each name once.
-/

namespace CodeDeck

open CodeDeck.Number

inductive Json (τ : Type := String) where
  | null
  | bool (b : Bool)
  | int (n : Int)
  | real (x : Binary64)
  | str (s : τ)
  | arr (items : List (Json τ))
  | obj (fields : List (τ × Json τ))
  deriving Repr

namespace Json

inductive Kind where
  | null | bool | int | real | str | arr | obj
  deriving DecidableEq, Repr

def kind : Json → Kind
  | null => .null
  | bool _ => .bool
  | int _ => .int
  | real _ => .real
  | str _ => .str
  | arr _ => .arr
  | obj _ => .obj

instance : Inhabited Json := ⟨null⟩

def ofOption {α : Type} (write : α → Json) : Option α → Json
  | some a => write a
  | none => null

def ofStrings (texts : List String) : Json := arr (texts.map str)

def field? (name : String) : Json → Option Json
  | obj fields => Assoc.get? name fields
  | _ => none

def text? : Json → Option String
  | str s => some s
  | _ => none

/-- A value counts as absent when it is null, false, zero or empty. -/
def truthy : Json → Bool
  | null => false
  | bool b => b
  | int n => n != 0
  | real x => !x.isZero
  | str s => s != ""
  | arr items => !items.isEmpty
  | obj fields => !fields.isEmpty

/-- A whole number; the truth values count as one and zero. -/
def whole? : Json → Option Int
  | int n => some n
  | bool b => some (if b then 1 else 0)
  | _ => none

end Json

end CodeDeck
