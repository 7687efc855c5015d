import CodeDeck.Pattern.Basic

/-!
Search for a pattern: the matches in a text from left to right, none overlapping another.
-/

namespace CodeDeck.Pattern

/-- A match: its two offsets, the text it took, and what it remembered, latest first. -/
structure Found where
  start : Nat
  stop : Nat
  kept : List (Nat × List Char)

def Found.kept? (m : Found) (slot : Nat) : Option (List Char) :=
  (m.kept.find? fun entry => entry.1 == slot).map (·.2)

def Found.get (m : Found) (slot : Nat) : List Char := (m.kept? slot).getD []

def matchAt? (p : Pattern) (limit : Nat) (place : Place) : Option Found :=
  (run? limit p place some).map fun finish => ⟨place.offset, finish.offset, finish.kept⟩

/-- The matches in `s`, which starts at `offset` behind `previous`; the first `skip` characters
belong to the match before. -/
def findFrom (p : Pattern) (limit : Nat) (skip offset : Nat) (previous : Option Char)
    (found : List Found) : List Char → List Found
  | [] => found.reverse
  | c :: rest =>
    match skip with
    | skip + 1 => findFrom p limit skip (offset + 1) (some c) found rest
    | 0 =>
      match matchAt? p limit ⟨offset, previous, c :: rest, []⟩ with
      | some m => findFrom p limit (m.stop - offset - 1) (offset + 1) (some c) (m :: found) rest
      | none => findFrom p limit 0 (offset + 1) (some c) found rest

/-- All matches of a pattern that takes at least one character. -/
def findAll (p : Pattern) (s : List Char) : List Found := findFrom p s.length 0 0 none [] s

end CodeDeck.Pattern
