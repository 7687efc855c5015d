import CodeDeck.Text.Utf8

/-!
Encodings of texts as bytes: UTF-8, and the encodings in units of two or four bytes in either order.
In the latter a surrogate without its partner becomes the replacement character; units that are not
complete or stand for no character cannot be decoded.
-/

namespace CodeDeck.Text

inductive Encoding where
  | utf8
  | utf16 (bigEndian : Bool)
  | utf32 (bigEndian : Bool)
  deriving DecidableEq, Repr

def Encoding.name : Encoding → String
  | utf8 => "utf-8"
  | utf16 true => "utf-16-be"
  | utf16 false => "utf-16-le"
  | utf32 true => "utf-32-be"
  | utf32 false => "utf-32-le"

/-- The bytes that cannot be decoded: the first one, the offsets of the first and the last one, and
whether they are the start of a unit. -/
structure Undecodable where
  encoding : Encoding
  byte : Nat
  first : Nat
  last : Nat
  isTruncated : Bool
  deriving DecidableEq, Repr

def lowerHexDigit (n : Nat) : Char := Nat.digitChar (n % 16)

def Undecodable.message (u : Undecodable) : String :=
  "'" ++ u.encoding.name ++ "' codec can't decode byte"
    ++ (if u.first = u.last then
        " 0x" ++ String.ofList [lowerHexDigit (u.byte / 16), lowerHexDigit u.byte] ++ " in position "
          ++ toString u.first
      else "s in position " ++ toString u.first ++ "-" ++ toString u.last)
    ++ (if u.isTruncated then ": truncated data" else ": code point not in range(0x110000)")

namespace Encoding

def isSurrogate (unit : Nat) : Bool := 0xD800 ≤ unit && unit < 0xE000

def char (unit : Nat) : Char := if isSurrogate unit then Utf8.replacement else Char.ofNat unit

/-- The characters of units of two bytes; two surrogates make one character. -/
def ofUnits : List Nat → List Char
  | [] => []
  | [unit] => [char unit]
  | first :: second :: rest =>
    if 0xD800 ≤ first && first < 0xDC00 && (0xDC00 ≤ second && second < 0xE000) then
      Char.ofNat (0x10000 + (first - 0xD800) * 0x400 + (second - 0xDC00)) :: ofUnits rest
    else char first :: ofUnits (second :: rest)

def pairs (bigEndian : Bool) (i : Nat) : List Nat → Except Undecodable (List Nat)
  | [] => .ok []
  | [byte] => .error ⟨utf16 bigEndian, byte, i, i, true⟩
  | a :: b :: rest =>
    (pairs bigEndian (i + 2) rest).map ((if bigEndian then a * 0x100 + b else b * 0x100 + a) :: ·)

def quadUnit (bigEndian : Bool) (a b c d : Nat) : Nat :=
  if bigEndian then ((a * 0x100 + b) * 0x100 + c) * 0x100 + d
  else ((d * 0x100 + c) * 0x100 + b) * 0x100 + a

def quads (bigEndian : Bool) (i : Nat) : List Nat → Except Undecodable (List Char)
  | [] => .ok []
  | a :: b :: c :: d :: rest =>
    if 0x110000 ≤ quadUnit bigEndian a b c d then .error ⟨utf32 bigEndian, a, i, i + 3, false⟩
    else (quads bigEndian (i + 4) rest).map (char (quadUnit bigEndian a b c d) :: ·)
  | a :: rest => .error ⟨utf32 bigEndian, a, i, i + rest.length, true⟩

end Encoding

def Encoding.decode (bytes : List Nat) : Encoding → Except Undecodable (List Char)
  | utf8 => .ok (Utf8.decode bytes)
  | utf16 bigEndian => (pairs bigEndian 0 bytes).map ofUnits
  | utf32 bigEndian => quads bigEndian 0 bytes

end CodeDeck.Text
