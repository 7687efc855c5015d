import CodeDeck.Text.Lines
import CodeDeck.Text.Search

/-!
Numeric addresses: four decimal numbers between points, or eight groups of hexadecimal digits between
colons, where one double colon stands for groups that are zero.
-/

namespace CodeDeck.Hostname

open CodeDeck.Text

/-- A number up to 255 without needless zeros. -/
def isOctet (s : List Char) : Bool :=
  !s.isEmpty && s.all Char.isDigit && s.length ≤ 3 && (s == ['0'] || s.head? != some '0')
    && s.foldl (fun n c => 10 * n + (c.toNat - 48)) 0 ≤ 255

def isDottedAddress (s : List Char) : Bool :=
  let octets := splitOn '.' s
  octets.length == 4 && octets.all isOctet

def isHexDigit (c : Char) : Bool := c.isDigit || 'a' ≤ c && c ≤ 'f' || 'A' ≤ c && c ≤ 'F'

def isGroup (s : List Char) : Bool := !s.isEmpty && s.length ≤ 4 && s.all isHexDigit

/-- The groups of an address, where a dotted address in the last place counts as two groups. -/
def groups? (s : List Char) : Option (List (List Char)) :=
  let groups := splitOn ':' s
  match groups.getLast? with
  | some final =>
    if groups.length < 3 then none
    else if final.contains '.' then
      if isDottedAddress final then some (groups.dropLast ++ [['0'], ['0']]) else none
    else some groups
  | none => none

/-- The groups on one side of a double colon; the outermost one may be empty if it is alone. -/
def sideCount? (outermostFirst : List (List Char)) : Option Nat :=
  match outermostFirst with
  | [] :: rest => if rest.isEmpty then some 0 else none
  | groups => if groups.all isGroup then some groups.length else none

def emptyPlaces (groups : List (List Char)) : List Nat :=
  (List.range groups.length).filter fun i =>
    0 < i && i + 1 < groups.length && groups[i]? == some []

def isGroupAddress (s : List Char) : Bool :=
  match groups? s with
  | none => false
  | some groups =>
    match emptyPlaces groups with
    | [] => groups.length == 8 && groups.all isGroup
    | [place] =>
      match sideCount? (groups.take place), sideCount? (groups.drop (place + 1)).reverse with
      | some before, some behind => before + behind < 8
      | _, _ => false
    | _ => false

/-- An address of groups may have a zone, told behind a percent sign. -/
def isZonedAddress (s : List Char) : Bool :=
  let (address, zone) := cut '%' s
  isGroupAddress address && (!s.contains '%' || !zone.isEmpty && !zone.contains '%')

end CodeDeck.Hostname
