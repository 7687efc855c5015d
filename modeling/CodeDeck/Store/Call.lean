import CodeDeck.Store.Basic

/-!
Calls to a store, one after the other.
-/

namespace CodeDeck

inductive StoreCall (τ : Type) where
  | get (key : τ)
  | set (key : τ) (value : Json τ)
  | delete (key : τ)

namespace StoreCall

variable {σ τ : Type} [KeyValueStore σ τ]

def perform (store : σ) : StoreCall τ → Except Fault (Json τ) × σ
  | get key => (KeyValueStore.read store key, store)
  | set key value =>
    let (done, store) := KeyValueStore.set store key value
    (done.map fun _ => .null, store)
  | delete key =>
    let (done, store) := KeyValueStore.delete store key
    (done.map fun _ => .null, store)

def answers (store : σ) : List (StoreCall τ) → List (Except Fault (Json τ))
  | [] => []
  | c :: rest => (c.perform store).1 :: answers (c.perform store).2 rest

end StoreCall

end CodeDeck
