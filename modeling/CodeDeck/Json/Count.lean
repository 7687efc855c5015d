import CodeDeck.Json.Key
import CodeDeck.Json.Read

/-!
Counting and comparing with values as they are stored. Numbers of all kinds compare by amount, texts
by their characters and lists by the first items that differ; other values have no order.
-/

namespace CodeDeck.Json

open CodeDeck.Number

def isNumber : Json → Bool
  | real _ => true
  | v => v.whole?.isSome

mutual

def precedes : Json → Json → Except Fault Bool
  | str a, str b => .ok (a < b)
  | arr as, arr bs => precedesItems as bs
  | real x, real y => .ok (x.lt y)
  | real x, b => (asWhole b).map x.ltInt
  | a, real y => (asWhole a).map fun n => Binary64.intLt n y
  | a, b => do
    let a ← asWhole a
    let b ← asWhole b
    return a < b

def precedesItems : List Json → List Json → Except Fault Bool
  | [], bs => .ok (!bs.isEmpty)
  | _ :: _, [] => .ok false
  | a :: as, b :: bs => if same a b then precedesItems as bs else precedes a b

end

def exceeds (a b : Json) : Except Fault Bool := precedes b a

def larger (a b : Json) : Except Fault Json :=
  (precedes a b).map fun less => if less then b else a

def smaller (a b : Json) : Except Fault Json :=
  (precedes b a).map fun less => if less then b else a

def addOne : Json → Except Fault Json
  | real x => .ok (real x.addOne)
  | v => (asWhole v).map fun n => int (n + 1)

def atLeast (n : Int) : Json → Bool
  | real x => x != .nan && !x.ltInt n
  | v => v.whole?.any (n ≤ ·)

def atMost (n : Int) : Json → Bool
  | real x => x != .nan && !Binary64.intLt n x
  | v => v.whole?.any (· ≤ n)

@[simp]
theorem addOne_int (n : Int) : addOne (int n) = .ok (int (n + 1)) := rfl

@[simp]
theorem precedes_int (a b : Int) : precedes (int a) (int b) = .ok (decide (a < b)) := rfl

@[simp]
theorem larger_int (a b : Int) : larger (int a) (int b) = .ok (int (max a b)) := by
  simp only [larger, precedes_int, Except.map, decide_eq_true_eq]
  split
  · next less => rw [Int.max_eq_right (by omega)]
  · next less => rw [Int.max_eq_left (by omega)]

end CodeDeck.Json
