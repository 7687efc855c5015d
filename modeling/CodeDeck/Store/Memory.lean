import CodeDeck.Store.Basic

/-!
Stores in memory: one that refuses only what cannot be written, and one whose calls fail on a schedule.
-/

namespace CodeDeck

structure MemoryOf (τ : Type) where
  entries : Assoc τ (Json τ) := []

abbrev Memory := MemoryOf String

instance {τ : Type} [DecidableEq τ] : KeyValueStore (MemoryOf τ) τ where
  get? m key := .ok (m.entries.get? key)
  set m key value := KeyValueStore.written value m ⟨m.entries.set key value⟩
  delete m key := (.ok (), ⟨m.entries.erase key⟩)

/-- The call with number `n` fails when `fails n` holds, and then changes nothing but the count of
calls; reading is no call of its own and fails with the next one. -/
structure Unreliable where
  memory : Memory
  calls : Nat
  fails : Nat → Bool

namespace Unreliable

def attempt (u : Unreliable) (change : Memory → Except Fault Unit × Memory) : Except Fault Unit × Unreliable :=
  if u.fails u.calls then (.error .storeDown, { u with calls := u.calls + 1 })
  else
    let (done, memory) := change u.memory
    (done, { u with calls := u.calls + 1, memory := memory })

def down : Unreliable := ⟨⟨[]⟩, 0, fun _ => true⟩

end Unreliable

instance : KeyValueStore Unreliable where
  get? u key := if u.fails u.calls then .error .storeDown else .ok (u.memory.entries.get? key)
  set u key value := u.attempt fun m => KeyValueStore.set m key value
  delete u key := u.attempt fun m => KeyValueStore.delete m key

end CodeDeck
