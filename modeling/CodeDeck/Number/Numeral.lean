import CodeDeck.Text.Blank
import CodeDeck.Text.Digit

/-!
Whole numbers written as text: blanks around, one optional sign, and decimal digits of any script
with single underscores between them. A numeral of very many digits is not read.
-/

namespace CodeDeck.Number

open CodeDeck.Text

/-- Digits read on from the value `n`; after an underscore a digit has to follow. -/
def readDigits (n : Nat) : List Char → Option Nat
  | [] => some n
  | '_' :: c :: rest => (digitValue? c).bind fun d => readDigits (10 * n + d) rest
  | c :: rest => (digitValue? c).bind fun d => readDigits (10 * n + d) rest

def readNat? : List Char → Option Nat
  | [] => none
  | c :: rest => (digitValue? c).bind fun d => readDigits d rest

/-- The blanks that may stand around a numeral: all but the four separators of records and fields. -/
def isNumeralBlank (c : Char) : Bool := isBlank c && !(28 ≤ c.toNat && c.toNat ≤ 31)

def trimNumeral (s : List Char) : List Char :=
  ((s.dropWhile isNumeralBlank).reverse.dropWhile isNumeralBlank).reverse

def maxDigits : Nat := 4300

def fitsDigits : (count n : Nat) → Bool
  | 0, n => n == 0
  | count + 1, n => n < 10 || fitsDigits count (n / 10)

inductive NumeralProblem where
  | malformed
  | tooLong (count : Nat)
  deriving DecidableEq, Repr

def splitSign : List Char → Bool × List Char
  | '-' :: rest => (true, rest)
  | '+' :: rest => (false, rest)
  | s => (false, s)

def isNumeralChar (c : Char) : Bool := c == '_' || (digitValue? c).isSome

/-- That there are too many digits shows before anything that is wrong behind them. -/
def readInt (s : List Char) : Except NumeralProblem Int :=
  let (negative, unsigned) := splitSign (trimNumeral s)
  let digits := unsigned.takeWhile isNumeralChar
  let count := digits.countP (· != '_')
  match readNat? digits with
  | none => .error .malformed
  | some n =>
    if maxDigits < count then .error (.tooLong count)
    else if digits.length < unsigned.length then .error .malformed
    else .ok (if negative then -(n : Int) else n)

end CodeDeck.Number
