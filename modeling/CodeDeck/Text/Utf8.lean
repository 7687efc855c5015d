/-!
UTF-8. Bytes are numbers below 256. Reading never fails: each longest start of a character that is
not completed, and each byte that can start none, becomes one replacement character.
-/

namespace CodeDeck.Text.Utf8

def encodeChar (c : Char) : List Nat :=
  let n := c.toNat
  if n < 0x80 then [n]
  else if n < 0x800 then [0xC0 + n / 0x40, 0x80 + n % 0x40]
  else if n < 0x10000 then [0xE0 + n / 0x1000, 0x80 + n / 0x40 % 0x40, 0x80 + n % 0x40]
  else
    [0xF0 + n / 0x40000, 0x80 + n / 0x1000 % 0x40, 0x80 + n / 0x40 % 0x40, 0x80 + n % 0x40]

def encode (s : List Char) : List Nat := s.flatMap encodeChar

def replacement : Char := Char.ofNat 0xFFFD

/-- A character that is not complete: the value so far, the number of bytes that `lacks`, and the
range of the next byte. -/
structure Partial where
  value : Nat
  lacks : Nat
  low : Nat
  high : Nat
  deriving DecidableEq, Repr

/-- The characters that are certain after a byte which starts a character, and what is left open. -/
def startByte (b : Nat) : List Char × Option Partial :=
  if b < 0x80 then ([Char.ofNat b], none)
  else if b < 0xC2 then ([replacement], none)
  else if b < 0xE0 then ([], some ⟨b - 0xC0, 1, 0x80, 0xBF⟩)
  else if b < 0xF0 then
    ([], some ⟨b - 0xE0, 2, if b = 0xE0 then 0xA0 else 0x80, if b = 0xED then 0x9F else 0xBF⟩)
  else if b < 0xF5 then
    ([], some ⟨b - 0xF0, 3, if b = 0xF0 then 0x90 else 0x80, if b = 0xF4 then 0x8F else 0xBF⟩)
  else ([replacement], none)

def nextByte (p : Option Partial) (b : Nat) : List Char × Option Partial :=
  match p with
  | none => startByte b
  | some p =>
    if p.low ≤ b ∧ b ≤ p.high then
      let value := p.value * 0x40 + (b - 0x80)
      if p.lacks = 1 then ([Char.ofNat value], none)
      else ([], some ⟨value, p.lacks - 1, 0x80, 0xBF⟩)
    else
      let (sure, left) := startByte b
      (replacement :: sure, left)

/-- The characters of the bytes, behind those of `read`, last one first. -/
def decodeFrom (read : List Char) : Option Partial → List Nat → List Char
  | none, [] => read.reverse
  | some _, [] => (replacement :: read).reverse
  | p, b :: rest =>
    let (sure, left) := nextByte p b
    decodeFrom (sure.reverse ++ read) left rest

def decode (bytes : List Nat) : List Char := decodeFrom [] none bytes

end CodeDeck.Text.Utf8
