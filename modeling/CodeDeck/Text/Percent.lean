import CodeDeck.Text.Utf8

/-!
Percent encoding: a character that may not stand for itself is written as the bytes of its UTF-8
form, each as a percent sign and two upper-case hexadecimal digits.
-/

namespace CodeDeck.Text.Percent

def hexDigit (n : Nat) : Char := if n < 10 then Char.ofNat (n + 48) else Char.ofNat (n + 55)

def encodeByte (b : Nat) : List Char := ['%', hexDigit (b / 16), hexDigit (b % 16)]

def encode (safe : Char → Bool) (s : List Char) : List Char :=
  s.flatMap fun c => if safe c then [c] else (Utf8.encodeChar c).flatMap encodeByte

def hexValue? (c : Char) : Option Nat :=
  if '0' ≤ c && c ≤ '9' then some (c.toNat - 48)
  else if 'A' ≤ c && c ≤ 'F' then some (c.toNat - 55)
  else if 'a' ≤ c && c ≤ 'f' then some (c.toNat - 87)
  else none

def byte? : List Char → Option Nat
  | '%' :: a :: b :: _ => do
    let a ← hexValue? a
    let b ← hexValue? b
    return 16 * a + b
  | _ => none

/-- The bytes of a text; the first `skip` characters are part of what has been read before. -/
def bytes : (skip : Nat) → List Char → List Nat
  | _, [] => []
  | skip + 1, _ :: rest => bytes skip rest
  | 0, c :: rest =>
    match byte? (c :: rest) with
    | some b => b :: bytes 2 rest
    | none => Utf8.encodeChar c ++ bytes 0 rest

/-- A percent sign in front of anything but two digits stands for itself. -/
def decode (s : List Char) : List Char := Utf8.decode (bytes 0 s)

def isUnreserved (c : Char) : Bool := c.isAlphanum || c ∈ ['_', '.', '-', '~', '/']

def encodePath (path : List Char) : List Char := encode isUnreserved path

end CodeDeck.Text.Percent
