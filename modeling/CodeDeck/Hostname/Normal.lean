import CodeDeck.Hostname.Address
import CodeDeck.Hostname.Label
import CodeDeck.Text.Lowercase
import CodeDeck.Text.Percent

/-!
The normal form of a host: a numeric address as it stands, and a name in lower-case ASCII.
-/

namespace CodeDeck.Hostname

open CodeDeck.Text

/-- How far texts in four runs of digits may have come, with any character between two runs: an even
stage is in front of a run, an odd one in it. -/
def dottedStages (stages : List Nat) (c : Char) : List Nat :=
  (List.range 8).filter fun stage =>
    if stage % 2 = 1 then c.isDigit && (stages.contains stage || stages.contains (stage - 1))
    else 0 < stage && stages.contains (stage - 1)

/-- Four runs of digits with any characters between them are meant to be an address. -/
def looksDotted (s : List Char) : Bool := (s.foldl dottedStages [0]).contains 7

def isNameChar (c : Char) : Bool :=
  c.isAlphanum
    || c ∈ ['-', '.', '_', '~', '!', '$', '&', '\'', '(', ')', '*', '+', ',', ';', '=', '"', '\x60',
      '\x7b', '\x7d', '%', '|', '\\']

/-- An address of groups is given in square brackets, which are no part of it. -/
def normal? (host : List Char) : Option (List Char) :=
  if looksDotted host then if isDottedAddress host then some host else none
  else if host.head? = some '[' ∧ host.getLast? = some ']' then
    let address := (host.drop 1).dropLast
    if isZonedAddress address then some address else none
  else if host.all isAscii then some (Percent.encode isNameChar (lower host))
  else asciiName? (lower host)

end CodeDeck.Hostname
