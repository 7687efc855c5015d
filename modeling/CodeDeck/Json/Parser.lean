import CodeDeck.Json.Basic
import CodeDeck.Number.Numeral
import CodeDeck.Text.Loose

/-!
Reading JSON text into values with texts of any type that is made of code points. Besides the standard values the words `NaN`, `Infinity` and `-Infinity` are
numbers; of two fields with one name the later value is kept at the place of the earlier one. Whole
numbers of very many digits and values nested very deep are not read.
-/

namespace CodeDeck.Json

open CodeDeck.Number CodeDeck.Text

inductive Problem where
  | expectingValue
  | expectingName
  | expectingColon
  | expectingComma
  | unterminatedString
  | controlCharacter
  | invalidEscape
  | invalidUnicodeEscape
  | extraData
  | tooManyDigits (count : Nat)
  | nestedTooDeep (inObject : Bool)
  deriving DecidableEq, Repr

/-- A problem and the number of characters that follow its place. -/
structure Stop where
  problem : Problem
  remaining : Nat
  deriving DecidableEq, Repr

/-- A problem and its place: line and column from one, offset from zero. -/
structure Malformed where
  problem : Problem
  line : Nat
  column : Nat
  offset : Nat
  deriving DecidableEq, Repr

def Problem.message : Problem → String
  | expectingValue => "Expecting value"
  | expectingName => "Expecting property name enclosed in double quotes"
  | expectingColon => "Expecting ':' delimiter"
  | expectingComma => "Expecting ',' delimiter"
  | unterminatedString => "Unterminated string starting at"
  | controlCharacter => "Invalid control character at"
  | invalidEscape => "Invalid \\escape"
  | invalidUnicodeEscape => "Invalid \\uXXXX escape"
  | extraData => "Extra data"
  | tooManyDigits count =>
    "Exceeds the limit (4300 digits) for integer string conversion: value has " ++ toString count
      ++ " digits; use sys.set_int_max_str_digits() to increase the limit"
  | nestedTooDeep inObject =>
    "maximum recursion depth exceeded while decoding a JSON "
      ++ (if inObject then "object" else "array") ++ " from a unicode string"

/-- Is the text too large to be read, whether it is JSON or not? -/
def Problem.isLimit : Problem → Bool
  | tooManyDigits _ => true
  | nestedTooDeep _ => true
  | _ => false

def Problem.isNesting : Problem → Bool
  | nestedTooDeep _ => true
  | _ => false

def Malformed.message (m : Malformed) : String :=
  if m.problem.isLimit then m.problem.message
  else
    m.problem.message ++ ": line " ++ toString m.line ++ " column " ++ toString m.column
      ++ " (char " ++ toString m.offset ++ ")"

abbrev Reading (α : Type) := Except Stop (α × List Char)

def stop {α : Type} (problem : Problem) (at_ : List Char) : Reading α :=
  .error ⟨problem, at_.length⟩

def isSpace (c : Char) : Bool := c == ' ' || c == '\t' || c == '\n' || c == '\r'

def skipSpace (s : List Char) : List Char := s.dropWhile isSpace

def word? (word : String) (s : List Char) : Option (List Char) :=
  if word.toList.isPrefixOf s then some (s.drop word.length) else none

def hexValue? (c : Char) : Option Nat :=
  if '0' ≤ c && c ≤ '9' then some (c.toNat - 48)
  else if 'a' ≤ c && c ≤ 'f' then some (c.toNat - 87)
  else if 'A' ≤ c && c ≤ 'F' then some (c.toNat - 55)
  else none

def fourHex? : List Char → Option (Nat × List Char)
  | a :: b :: c :: d :: rest => do
    let a ← hexValue? a
    let b ← hexValue? b
    let c ← hexValue? c
    let d ← hexValue? d
    return (((a * 16 + b) * 16 + c) * 16 + d, rest)
  | _ => none

def simpleEscape? : Char → Option Char
  | '"' => some '"'
  | '\\' => some '\\'
  | '/' => some '/'
  | 'b' => some '\x08'
  | 'f' => some '\x0c'
  | 'n' => some '\n'
  | 'r' => some '\r'
  | 't' => some '\t'
  | _ => none

def pointOf (unit : Nat) : CodePoint :=
  if 0xD800 ≤ unit && unit < 0xE000 then .surrogate (Fin.ofNat 0x800 (unit - 0xD800))
  else .scalar (Char.ofNat unit)

/-- The code point of one escaped code unit, or of two when they are a pair of surrogates. The text
begins after the `u`. -/
def unicodeEscape (s : List Char) : Option (Except (List Char) (CodePoint × List Char)) :=
  match fourHex? s with
  | none => none
  | some (_, []) => none
  | some (unit, rest) =>
    if 0xD800 ≤ unit && unit < 0xDC00 then
      match rest with
      | '\\' :: 'u' :: later =>
        if (later.drop 4).isEmpty then some (.ok (pointOf unit, rest))
        else
          match fourHex? later with
          | none => some (.error ('u' :: later))
          | some (second, rest') =>
            if 0xDC00 ≤ second && second < 0xE000 then
              let c := Char.ofNat (0x10000 + (unit - 0xD800) * 0x400 + (second - 0xDC00))
              some (.ok (.scalar c, rest'))
            else some (.ok (pointOf unit, rest))
      | _ => some (.ok (pointOf unit, rest))
    else some (.ok (pointOf unit, rest))

/-- The code points of a string after its opening quote; `opening` is the text from that quote on and
`read` holds the code points so far, last one first. -/
def stringBody (opening : List Char) : (fuel : Nat) → (read : List CodePoint) → List Char →
    Reading (List CodePoint)
  | 0, _, s => stop .expectingValue s
  | _ + 1, _, [] => stop .unterminatedString opening
  | _ + 1, read, '"' :: rest => .ok (read.reverse, rest)
  | fuel + 1, read, '\\' :: rest =>
    match rest with
    | [] => stop .unterminatedString opening
    | 'u' :: digits =>
      match unicodeEscape digits with
      | none => stop .invalidUnicodeEscape rest
      | some (.error place) => stop .invalidUnicodeEscape place
      | some (.ok (point, later)) => stringBody opening fuel (point :: read) later
    | c :: later =>
      match simpleEscape? c with
      | some plain => stringBody opening fuel (.scalar plain :: read) later
      | none => stop .invalidEscape ('\\' :: rest)
  | fuel + 1, read, c :: rest =>
    if c.toNat ≤ 0x1f then stop .controlCharacter (c :: rest)
    else stringBody opening fuel (.scalar c :: read) rest

def stringAfterQuote {τ : Type} [OfPoints τ] (fuel : Nat) (s : List Char) : Reading τ :=
  (stringBody ('"' :: s) fuel [] s).map fun (points, rest) => (OfPoints.ofPoints points, rest)

def digitRun (s : List Char) : List Char × List Char :=
  (s.takeWhile Char.isDigit, s.dropWhile Char.isDigit)

def digitsValue (digits : List Char) : Nat := digits.foldl (fun n c => 10 * n + (c.toNat - 48)) 0

/-- The digits before the point: a lone zero, or digits that do not start with one. -/
def wholePart? : List Char → Option (List Char × List Char)
  | '0' :: rest => some (['0'], rest)
  | c :: rest => if c.isDigit then some (digitRun (c :: rest)) else none
  | [] => none

def fractionPart : List Char → List Char × List Char
  | '.' :: c :: rest => if c.isDigit then digitRun (c :: rest) else ([], '.' :: c :: rest)
  | s => ([], s)

def exponentPart (s : List Char) : Option Int × List Char :=
  match s with
  | c :: rest =>
    if c = 'e' ∨ c = 'E' then
      let (negative, later) := match rest with
        | '-' :: later => (true, later)
        | '+' :: later => (false, later)
        | later => (false, later)
      match digitRun later with
      | ([], _) => (none, s)
      | (digits, after) =>
        let n : Int := digitsValue digits
        (some (if negative then -n else n), after)
    else (none, s)
  | [] => (none, s)

/-- A number; a whole one may have as many digits as a numeral. -/
def number? {τ : Type} (s : List Char) : Option (Reading (Json τ)) := do
  let (negative, unsigned) := match s with
    | '-' :: rest => (true, rest)
    | rest => (false, rest)
  let (whole, rest) ← wholePart? unsigned
  let (fraction, rest) := fractionPart rest
  let (exponent, rest) := exponentPart rest
  if fraction.isEmpty && exponent.isNone then
    if maxDigits < whole.length then return stop (.tooManyDigits whole.length) s
    else
      let n : Int := digitsValue whole
      return .ok (int (if negative then -n else n), rest)
  else
    let digits := whole ++ fraction
    let power := exponent.getD 0 - fraction.length
    return .ok (real (.ofDecimal negative (digitsValue digits) digits.length power), rest)

def wordValue? {τ : Type} (s : List Char) : Option (Json τ × List Char) :=
  ((word? "null" s).map fun rest => (null, rest))
    <|> ((word? "true" s).map fun rest => (bool true, rest))
    <|> ((word? "false" s).map fun rest => (bool false, rest))
    <|> ((word? "NaN" s).map fun rest => (real .nan, rest))
    <|> ((word? "Infinity" s).map fun rest => (real (.infinite false), rest))
    <|> ((word? "-Infinity" s).map fun rest => (real (.infinite true), rest))

def maxNesting : Nat := 970

section Values

variable {τ : Type} [OfPoints τ] [DecidableEq τ]

mutual

/-- The value at the start of the text, which may hold `room` more lists and objects in each other. -/
def value : (fuel room : Nat) → List Char → Reading (Json τ)
  | 0, _, s => stop .expectingValue s
  | fuel + 1, room, s =>
    match s with
    | '"' :: rest => (stringAfterQuote fuel rest).map fun (text, after) => (str text, after)
    | '[' :: rest =>
      match room, skipSpace rest with
      | 0, _ => stop (.nestedTooDeep false) s
      | _ + 1, ']' :: after => .ok (arr [], after)
      | room + 1, rest => items fuel room [] rest
    | '\x7b' :: rest =>
      match room, skipSpace rest with
      | 0, _ => stop (.nestedTooDeep true) s
      | _ + 1, '\x7d' :: after => .ok (obj [], after)
      | room + 1, rest => members fuel room [] rest
    | s =>
      match wordValue? s with
      | some reading => .ok reading
      | none => (number? s).getD (stop .expectingValue s)

def items : (fuel room : Nat) → (read : List (Json τ)) → List Char → Reading (Json τ)
  | 0, _, _, s => stop .expectingValue s
  | fuel + 1, room, read, s =>
    match value fuel room s with
    | .error e => .error e
    | .ok (item, rest) =>
      match skipSpace rest with
      | ']' :: after => .ok (arr (item :: read).reverse, after)
      | ',' :: after => items fuel room (item :: read) (skipSpace after)
      | after => stop .expectingComma after

def members : (fuel room : Nat) → (read : List (τ × Json τ)) → List Char → Reading (Json τ)
  | 0, _, _, s => stop .expectingValue s
  | fuel + 1, room, read, s =>
    match s with
    | '"' :: rest =>
      match stringAfterQuote fuel rest with
      | .error e => .error e
      | .ok (name, rest) =>
        match skipSpace rest with
        | ':' :: rest =>
          match value fuel room (skipSpace rest) with
          | .error e => .error e
          | .ok (item, rest) =>
            let read := Assoc.set name item read
            match skipSpace rest with
            | '\x7d' :: after => .ok (obj read, after)
            | ',' :: after => members fuel room read (skipSpace after)
            | after => stop .expectingComma after
        | rest => stop .expectingColon rest
    | s => stop .expectingName s

end

end Values

def locate (s : List Char) (e : Stop) : Malformed :=
  let offset := s.length - e.remaining
  let before := s.take offset
  { problem := e.problem
    line := before.count '\n' + 1
    column := (before.reverse.takeWhile (· != '\n')).length + 1
    offset := offset }

def parseAs (τ : Type) [OfPoints τ] [DecidableEq τ] (s : List Char) : Except Malformed (Json τ) :=
  match value (2 * s.length + 2) maxNesting (skipSpace s) with
  | .error e => .error (locate s e)
  | .ok (v, rest) =>
    match skipSpace rest with
    | [] => .ok v
    | extra => .error (locate s ⟨.extraData, extra.length⟩)

/-- A surrogate that stands alone is read as the replacement character. -/
def parse (s : List Char) : Except Malformed Json := parseAs String s

end CodeDeck.Json
