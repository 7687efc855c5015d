import CodeDeck.Scan.Region
import CodeDeck.Text.Search

/-!
Balanced braces. Braces inside quoted literals and comments do not count; a closing brace in front
of the first opening one is passed over.
-/

namespace CodeDeck.Scan

open CodeDeck.Text

/-- Offset just past the brace that closes the first balanced unit of the text that starts at offset
`i` in the given region, where `depth` braces are open. -/
def braceEnd (quotes : List Char) : Region → (depth i : Nat) → List Char → Option Nat
  | _, _, _, [] => none
  | region, depth, i, c :: rest =>
    if region = .code ∧ c = '\x7b' then braceEnd quotes .code (depth + 1) (i + 1) rest
    else if region = .code ∧ c = '\x7d' then
      if depth = 1 then some (i + 1) else braceEnd quotes .code (depth - 1) (i + 1) rest
    else braceEnd quotes (region.next quotes true c rest.head?) depth (i + 1) rest

/-- The text from `start` through the close of the first balanced unit at or after `scanFrom`. -/
def braceBlock? (source : List Char) (start scanFrom : Nat) (quotes : List Char) :
    Option (List Char) :=
  (braceEnd quotes .code 0 scanFrom (source.drop scanFrom)).map (slice source start)

theorem braceBlock?_isInfix {source : List Char} {start scanFrom : Nat} {quotes code : List Char}
    (h : braceBlock? source start scanFrom quotes = some code) : code <:+: source := by
  obtain ⟨stop, _, rfl⟩ := Option.map_eq_some_iff.1 h
  exact slice_isInfix ..

end CodeDeck.Scan
