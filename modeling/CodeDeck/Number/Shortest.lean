import CodeDeck.Number.Binary64

/-!
The shortest decimal that reads back as a given double-precision number. Grids of one, two and more
significant digits are tried in turn: the first on which a neighbour of the number reads back gives
the digits, and of two such neighbours the nearer one is taken.
-/

namespace CodeDeck.Number.Shortest

open CodeDeck.Number

def fraction (mantissa : Nat) (exponent : Int) : Nat × Nat :=
  if exponent < 0 then (mantissa, Nat.pow 2 (-exponent).toNat)
  else (mantissa * Nat.pow 2 exponent.toNat, 1)

/-- The fraction divided by `10 ^ power`. -/
def onGrid (num den : Nat) (power : Int) : Nat × Nat :=
  if power < 0 then (num * Nat.pow 10 (-power).toNat, den) else (num, den * Nat.pow 10 power.toNat)

def digitCount (n : Nat) : Nat := (Nat.toDigits 10 n).length

def leadingPower (num den : Nat) : Int :=
  let guess : Int := (digitCount num : Int) - digitCount den
  let (n, d) := onGrid num den guess
  if n < d then guess - 1 else guess

def readsBack (mantissa : Nat) (exponent : Int) (digits : Nat) (power : Int) : Bool :=
  Binary64.ofDecimal false digits (digitCount digits) power == .finite false mantissa exponent

/-- The neighbour on the grid of `count` digits that reads back. -/
def onCount? (mantissa : Nat) (exponent : Int) (lead : Int) (count : Nat) : Option (Nat × Int) :=
  let (num, den) := fraction mantissa exponent
  let power := lead - (count - 1 : Nat)
  let (n, d) := onGrid num den power
  let below := n / d
  let nearer := roundDiv n d
  let farther := if nearer = below then below + 1 else below
  if readsBack mantissa exponent nearer power then some (nearer, power)
  else if readsBack mantissa exponent farther power then some (farther, power)
  else none

/-- Digits and power of ten of a positive number. Seventeen digits always read back. -/
def decimal (mantissa : Nat) (exponent : Int) : Nat × Int :=
  let (num, den) := fraction mantissa exponent
  let lead := leadingPower num den
  ((List.range 17).findSome? fun k => onCount? mantissa exponent lead (k + 1)).getD (0, 0)

def dropZeros : Nat → Nat → Int → Nat × Int
  | 0, digits, power => (digits, power)
  | fuel + 1, digits, power =>
    if digits % 10 = 0 && digits ≠ 0 then dropZeros fuel (digits / 10) (power + 1)
    else (digits, power)

def exponentText (e : Int) : String :=
  let digits := toString e.natAbs
  (if e < 0 then "e-" else "e+") ++ (if e.natAbs < 10 then "0" ++ digits else digits)

def zeros (n : Nat) : String := String.ofList (List.replicate n '0')

/-- A point stands inside the digits from the fourth place after it up to sixteen places before it;
beyond that the number is written with an exponent of at least two digits. -/
def layout (digits : Nat) (power : Int) : String :=
  let (digits, power) := dropZeros 20 digits power
  let text := toString digits
  let point : Int := text.length + power
  if -4 < point && point ≤ 16 then
    if point ≤ 0 then "0." ++ zeros (-point).toNat ++ text
    else if text.length ≤ point.toNat then text ++ zeros (point.toNat - text.length) ++ ".0"
    else
      String.ofList (text.toList.take point.toNat) ++ "."
        ++ String.ofList (text.toList.drop point.toNat)
  else
    let first := String.ofList (text.toList.take 1)
    let others := text.toList.drop 1
    first ++ (if others.isEmpty then "" else "." ++ String.ofList others) ++ exponentText (point - 1)

end CodeDeck.Number.Shortest

namespace CodeDeck.Number

def Binary64.text (infinity undefined : String) : Binary64 → String
  | .finite negative mantissa exponent =>
    let body :=
      if mantissa = 0 then "0.0"
      else
        let (digits, power) := Shortest.decimal mantissa exponent
        Shortest.layout digits power
    if negative then "-" ++ body else body
  | .infinite negative => if negative then "-" ++ infinity else infinity
  | .nan => undefined

end CodeDeck.Number
