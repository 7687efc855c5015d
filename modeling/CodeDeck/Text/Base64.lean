/-!
Base 64. Characters outside the alphabet are passed over, and reading ends where padding completes a
group of four.
-/

namespace CodeDeck.Text.Base64

inductive Problem where
  | notAscii
  | leftOver (count : Nat)
  | padding
  deriving DecidableEq, Repr

def Problem.message : Problem → String
  | notAscii => "string argument should contain only ASCII characters"
  | leftOver count =>
    "Invalid base64-encoded string: number of data characters (" ++ toString count
      ++ ") cannot be 1 more than a multiple of 4"
  | padding => "Incorrect padding"

def value? (c : Char) : Option Nat :=
  if 'A' ≤ c && c ≤ 'Z' then some (c.toNat - 65)
  else if 'a' ≤ c && c ≤ 'z' then some (c.toNat - 71)
  else if '0' ≤ c && c ≤ '9' then some (c.toNat + 4)
  else if c = '+' then some 62
  else if c = '/' then some 63
  else none

/-- A group of four in the making: the characters taken, the bits of the last one that no byte holds
yet, and the padding characters since then. -/
structure Group where
  taken : Nat
  bits : Nat
  pads : Nat
  deriving DecidableEq, Repr

def Group.take (g : Group) (v : Nat) : Group × List Nat :=
  match g.taken with
  | 0 => (⟨1, v, 0⟩, [])
  | 1 => (⟨2, v % 16, 0⟩, [g.bits * 4 + v / 16])
  | 2 => (⟨3, v % 4, 0⟩, [g.bits * 16 + v / 4])
  | _ => (⟨0, 0, 0⟩, [g.bits * 64 + v])

/-- The bytes of the text, behind those of `read`, last one first. -/
def decodeFrom (read : List Nat) (g : Group) : List Char → Except Problem (List Nat)
  | [] =>
    if g.taken = 0 then .ok read.reverse
    else if g.taken = 1 then .error (.leftOver (read.length / 3 * 4 + 1))
    else .error .padding
  | c :: rest =>
    if c = '=' then
      if 2 ≤ g.taken then
        if 4 ≤ g.taken + g.pads + 1 then .ok read.reverse
        else decodeFrom read { g with pads := g.pads + 1 } rest
      else decodeFrom read g rest
    else
      match value? c with
      | none => decodeFrom read g rest
      | some v =>
        let (g, bytes) := g.take v
        decodeFrom (bytes ++ read) g rest

def decode (s : List Char) : Except Problem (List Nat) :=
  if s.all fun c => c.toNat < 128 then decodeFrom [] ⟨0, 0, 0⟩ s else .error .notAscii

def digit (v : Nat) : Char :=
  if v < 26 then Char.ofNat (v + 65)
  else if v < 52 then Char.ofNat (v + 71)
  else if v < 62 then Char.ofNat (v - 4)
  else if v = 62 then '+'
  else '/'

def encode : List Nat → List Char
  | [] => []
  | [a] => [digit (a / 4), digit (a % 4 * 16), '=', '=']
  | [a, b] => [digit (a / 4), digit (a % 4 * 16 + b / 16), digit (b % 16 * 4), '=']
  | a :: b :: c :: rest =>
    digit (a / 4) :: digit (a % 4 * 16 + b / 16) :: digit (b % 16 * 4 + c / 64) :: digit (c % 64)
      :: encode rest

end CodeDeck.Text.Base64
