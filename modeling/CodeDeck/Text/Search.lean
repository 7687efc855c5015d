/-!
Offsets and substrings. All offsets count characters; a slice runs from its first offset up to, and
without, its second one.
-/

namespace CodeDeck.Text

def slice (s : List Char) (start stop : Nat) : List Char := (s.drop start).take (stop - start)

theorem slice_isInfix (s : List Char) (start stop : Nat) : slice s start stop <:+: s :=
  (List.take_prefix ..).isInfix.trans (List.drop_suffix ..).isInfix

/-- A signed offset counts from the end when negative, and is cut off at both ends of the text. -/
def resolveOffset (length : Nat) (i : Int) : Nat :=
  if i < 0 then (length + i).toNat else min i.toNat length

theorem resolveOffset_natCast (length i : Nat) : resolveOffset length i = min i length := by
  unfold resolveOffset
  split <;> omega

theorem resolveOffset_le (length : Nat) (i : Int) : resolveOffset length i ≤ length := by
  unfold resolveOffset
  split <;> omega

def indexFrom? (needle : List Char) (i : Nat) : List Char → Option Nat
  | [] => if needle.isEmpty then some i else none
  | c :: rest => if needle.isPrefixOf (c :: rest) then some i else indexFrom? needle (i + 1) rest

def index? (needle s : List Char) (start : Nat) : Option Nat :=
  indexFrom? needle start (s.drop start)

def contains (needle s : List Char) : Bool := (index? needle s 0).isSome

def cut (c : Char) (s : List Char) : List Char × List Char :=
  (s.takeWhile (· != c), (s.dropWhile (· != c)).drop 1)

def afterLast (c : Char) (s : List Char) : List Char := (s.reverse.takeWhile (· != c)).reverse

def dropSuffix? (suffix s : List Char) : Option (List Char) :=
  if suffix.isSuffixOf s then some (s.take (s.length - suffix.length)) else none

end CodeDeck.Text
