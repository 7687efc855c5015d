import CodeDeck.Fault
import CodeDeck.Json.Writable
import CodeDeck.Text.Lowercase

/-!
Key-value stores of JSON values, with keys and texts of the type `τ`. Each call may fail; the state after a
failed call is as the store leaves it.
-/

namespace CodeDeck

open CodeDeck.Text

class KeyValueStore (σ : Type) (τ : Type := String) where
  get? : σ → τ → Except Fault (Option (Json τ))
  set : σ → τ → Json τ → Except Fault Unit × σ
  delete : σ → τ → Except Fault Unit × σ

namespace Key

def streak : String := "streak"

def recent : String := "recent"

def cards (fullName : String) : String := "cards:" ++ lowerString fullName

def progress (fullName : String) : String := "progress:" ++ lowerString fullName

end Key

namespace KeyValueStore

variable {σ τ : Type}

def read [KeyValueStore σ τ] (store : σ) (key : τ) : Except Fault (Json τ) :=
  (get? store key).map (·.getD .null)

/-- The outcome of writing the value, which leads from `store` to `after` if the value can be written. -/
def written (value : Json τ) (store after : σ) : Except Fault Unit × σ :=
  if value.isWritable then (.ok (), after) else (.error .unwritableNumber, store)

end KeyValueStore

end CodeDeck
