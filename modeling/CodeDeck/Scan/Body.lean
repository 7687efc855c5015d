import CodeDeck.Scan.Region
import CodeDeck.Text.Blank
import CodeDeck.Text.Search

/-!
The brace that opens the body of a declaration, told from the lack of a body and from the braces of
type annotations.
-/

namespace CodeDeck.Scan

open CodeDeck.Text

/-- Offset of the first opening brace at or after `pos`, unless a terminator comes before it. -/
def bodyBrace? (source : List Char) (pos : Nat) (terminators : List (List Char)) : Option Nat :=
  match index? ['\x7b'] source pos with
  | none => none
  | some brace =>
    if terminators.any fun t => contains t (slice source pos brace) then none else some brace

def typeLeaders : List (List Char) :=
  [[':'], ['|'], ['&'], [','], ['('], ['['], ['<'], ['=', '>'], ['?']]

/-- Offset of the brace that opens the body in the text that starts at offset `i`. `previous` is the
last token that is not blank and `depth` the number of brackets open; a semicolon outside brackets
means that there is no body. -/
def annotatedBrace (quotes : List Char) :
    Region → (previous : List Char) → (depth : Int) → (i : Nat) → List Char → Option Nat
  | _, _, _, _, [] => none
  | region, previous, depth, i, c :: rest =>
    if region ≠ .code then
      annotatedBrace quotes (region.next quotes false c rest.head?) previous depth (i + 1) rest
    else if quotes.contains c then annotatedBrace quotes (.literal c) [c] depth (i + 1) rest
    else if c = '\x7b' ∧ depth = 0 ∧ previous ∉ typeLeaders then some i
    else if c = '>' ∧ previous = ['='] then
      annotatedBrace quotes .code ['=', '>'] depth (i + 1) rest
    else if c ∈ ['(', '<', '[', '\x7b'] then
      annotatedBrace quotes .code [c] (depth + 1) (i + 1) rest
    else if c ∈ [')', '>', ']', '\x7d'] then
      annotatedBrace quotes .code [c] (depth - 1) (i + 1) rest
    else if c = ';' ∧ depth ≤ 0 then none
    else annotatedBrace quotes .code (if isBlank c then previous else [c]) depth (i + 1) rest

def annotatedBodyBrace? (source : List Char) (pos : Nat) (previous quotes : List Char) :
    Option Nat :=
  annotatedBrace quotes .code previous 0 pos (source.drop pos)

end CodeDeck.Scan
