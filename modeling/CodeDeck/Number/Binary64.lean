/-!
Double-precision numbers as exact values. A finite number is a sign, a mantissa below `2 ^ 53` and
a power of two; a decimal is read to the nearest such number, an exact tie to the even mantissa.
-/

namespace CodeDeck.Number

inductive Binary64 where
  | finite (negative : Bool) (mantissa : Nat) (exponent : Int)
  | infinite (negative : Bool)
  | nan
  deriving DecidableEq, Repr

/-- The quotient rounded to the nearest whole number, an exact half to the even neighbour. -/
def roundDiv (num den : Nat) : Nat :=
  let q := num / den
  let r := num % den
  if 2 * r < den then q
  else if 2 * r = den then q + q % 2
  else q + 1

namespace Binary64

def leastExponent : Int := -1074

def greatestExponent : Int := 971

def isZero : Binary64 → Bool
  | finite _ mantissa _ => mantissa == 0
  | _ => false

def scaled (num den : Nat) (e : Int) : Nat × Nat :=
  if e < 0 then (num * Nat.pow 2 (-e).toNat, den) else (num, den * Nat.pow 2 e.toNat)

/-- The power of two at which the fraction has 53 binary digits, or the least power there is. -/
def exponentOf (num den : Nat) : Int :=
  let e : Int := (Nat.log2 num : Int) - Nat.log2 den - 52
  let (n, d) := scaled num den e
  max leastExponent (if n / d < Nat.pow 2 52 then e - 1 else e)

def ofFraction (negative : Bool) (num den : Nat) : Binary64 :=
  if num = 0 then finite negative 0 leastExponent
  else
    let e := exponentOf num den
    let (n, d) := scaled num den e
    let mantissa := roundDiv n d
    let (mantissa, e) := if mantissa = Nat.pow 2 53 then (Nat.pow 2 52, e + 1) else (mantissa, e)
    if greatestExponent < e then infinite negative else finite negative mantissa e

/-- The number nearest to `digits * 10 ^ power`, where `digits` has `width` digits. Powers far out
of range are answered without computing them. -/
def ofDecimal (negative : Bool) (digits width : Nat) (power : Int) : Binary64 :=
  if digits = 0 || power + width < -340 then finite negative 0 leastExponent
  else if 320 < power then infinite negative
  else if 0 ≤ power then ofFraction negative (digits * Nat.pow 10 power.toNat) 1
  else ofFraction negative digits (Nat.pow 10 (-power).toNat)

def truncate? : Binary64 → Option Int
  | finite negative mantissa exponent =>
    let n : Nat :=
      if exponent < 0 then mantissa / Nat.pow 2 (-exponent).toNat
      else mantissa * Nat.pow 2 exponent.toNat
    some (if negative then -(n : Int) else n)
  | _ => none

def whole? (x : Binary64) : Option Int :=
  match x with
  | finite _ mantissa exponent =>
    if exponent < 0 ∧ mantissa % Nat.pow 2 (-exponent).toNat ≠ 0 then none else x.truncate?
  | _ => none

/-- The fraction with a sign, the denominator a power of two. -/
def signed (negative : Bool) (mantissa : Nat) (exponent : Int) : Int × Nat :=
  let m : Int := if negative then -(mantissa : Int) else mantissa
  if exponent < 0 then (m, Nat.pow 2 (-exponent).toNat) else (m * Nat.pow 2 exponent.toNat, 1)

def addOne : Binary64 → Binary64
  | finite negative mantissa exponent =>
    let (num, den) := signed negative mantissa exponent
    ofFraction (num + den < 0) (num + den).natAbs den
  | x => x

def lt : Binary64 → Binary64 → Bool
  | nan, _ => false
  | _, nan => false
  | infinite negative, y => negative && y != infinite true
  | x, infinite negative => !negative && x != infinite false
  | finite sx mx ex, finite sy my ey =>
    let (a, b) := signed sx mx ex
    let (c, d) := signed sy my ey
    a * d < c * b

def ltInt (x : Binary64) (n : Int) : Bool :=
  match x with
  | finite negative mantissa exponent =>
    let (num, den) := signed negative mantissa exponent
    num < n * den
  | infinite negative => negative
  | nan => false

def intLt (n : Int) (x : Binary64) : Bool :=
  match x with
  | finite negative mantissa exponent =>
    let (num, den) := signed negative mantissa exponent
    n * den < num
  | infinite negative => !negative
  | nan => false

end Binary64

end CodeDeck.Number
