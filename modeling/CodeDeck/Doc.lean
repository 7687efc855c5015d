import CodeDeck.Text.Lines
import CodeDeck.Text.Search

/-!
Documentation next to a declaration: a block comment or a run of comment lines directly above it, or
a triple-quoted string that opens its body. None is looked for farther than `window` characters away.
-/

namespace CodeDeck.Doc

open CodeDeck.Text

def window : Nat := 500

def closedAtEnd? : List Char → Option (List Char)
  | [] => none
  | c :: rest =>
    if c = '*' ∧ rest.head? = some '/' then if rest.length = 1 then some [] else none
    else (closedAtEnd? rest).map (c :: ·)

/-- The inside of the first documentation comment that closes at the end of the text. -/
def blockComment? : List Char → Option (List Char)
  | [] => none
  | c :: rest =>
    match if ['/', '*', '*'].isPrefixOf (c :: rest) then closedAtEnd? (rest.drop 2) else none with
    | some inside => some inside
    | none => blockComment? rest

def dropMarker (line : List Char) : List Char :=
  match trimStart line with
  | '*' :: c :: rest => if isBlank c then rest else c :: rest
  | '*' :: [] => []
  | _ => line

/-- The documentation comment that ends right in front of offset `pos`. -/
def block? (source : List Char) (pos : Int) : Option (List Char) :=
  let stop := resolveOffset source.length pos
  let before := trimEnd (slice source (pos - window).toNat stop)
  (blockComment? before).bind fun inside => joinProse ((lines inside).map dropMarker)

/-- The comments of the lines that start with the marker, given from the last line upwards. -/
def markedRun (marker : List Char) : List (List Char) → List (List Char)
  | [] => []
  | line :: above =>
    let line := trim line
    if marker.isPrefixOf line then line.drop marker.length :: markedRun marker above else []

def lineStart (before : List Char) : Nat := (before.reverse.dropWhile (· != '\n')).length

/-- The unbroken run of lines that start with `marker` right above the line of offset `pos`. A line
that begins outside the window does not count. -/
def line? (source : List Char) (pos : Int) (marker : List Char) : Option (List Char) :=
  let start := lineStart (source.take (resolveOffset source.length pos))
  let from_ := start - window
  let above := (lines (slice source from_ start)).dropLast
  let whole := if 0 < from_ then above.drop 1 else above
  joinProse (markedRun marker whole.reverse).reverse

def tripleQuoted? (quote : Char) : List Char → Option (List Char)
  | [] => none
  | c :: rest =>
    if [quote, quote, quote].isPrefixOf (c :: rest) then some []
    else (tripleQuoted? quote rest).map (c :: ·)

def dropStringMark : List Char → List Char
  | c :: rest => if c ∈ ['r', 'R', 'u', 'U'] then rest else c :: rest
  | [] => []

/-- The triple-quoted string that is the next token after offset `pos`. -/
def docstring? (source : List Char) (pos : Int) : Option (List Char) :=
  let start := resolveOffset source.length pos
  let stop := resolveOffset source.length (pos + window)
  let inside := match dropStringMark (trimStart (slice source start stop)) with
    | '"' :: '"' :: '"' :: rest => tripleQuoted? '"' rest
    | '\'' :: '\'' :: '\'' :: rest => tripleQuoted? '\'' rest
    | _ => none
  inside.bind fun text => joinProse (lines text)

end CodeDeck.Doc
