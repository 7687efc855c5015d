import CodeDeck.Hostname.Marks

/-!
Writing direction. A label that holds anything written from right to left has to be of one direction
throughout, so that no reader takes its parts for those of another label. The tables tell directions
of the characters that may stand in labels.
-/

namespace CodeDeck.Hostname

open CodeDeck.Text

inductive Direction where
  | left
  | right
  | number
  | arabicNumber
  | mark
  | neutral
  deriving DecidableEq, Repr

def rightTable : CharTable :=
  [(1488, 1524), (1568, 1610), (1646, 1647), (1649, 1749), (1765, 1766), (1774, 1775), (1786, 1808),
   (1810, 1839), (1869, 1957), (1969, 2026), (2036, 2037), (2048, 2069), (2074, 2074), (2084, 2084),
   (2088, 2088), (2112, 2136), (2144, 2190), (2208, 2249), (65139, 65139), (67584, 68096),
   (68112, 68149), (68192, 68324), (68352, 68899), (69248, 69289), (69296, 69445), (69488, 69505),
   (69552, 69622), (124928, 125124), (125218, 125251), (125259, 125273)]

def numberTable : CharTable := [(48, 57), (1776, 1785)]

def arabicNumberTable : CharTable := [(1632, 1641), (68912, 68921)]

def neutralTable : CharTable :=
  [(45, 45), (183, 183), (697, 698), (710, 719), (748, 748), (885, 885), (8204, 8205),
   (11823, 11823), (12539, 12539), (42623, 42623), (42775, 42783), (42888, 42888)]

def leftMarkTable : CharTable := [(3263, 3263), (3270, 3270), (72199, 72200), (72767, 72767)]

def Direction.of (c : Char) : Direction :=
  if rightTable.has c then right
  else if numberTable.has c then number
  else if arabicNumberTable.has c then arabicNumber
  else if neutralTable.has c then neutral
  else if isNonspacing c && !leftMarkTable.has c then mark
  else left

/-- The last direction that is not that of a mark. -/
def lastDirection? (directions : List Direction) : Option Direction :=
  (directions.filter (· != .mark)).getLast?

/-- From right to left: no letters of the other direction, digits of one kind only, and a letter or
digit at the end. -/
def isRightward (directions : List Direction) : Bool :=
  !directions.contains .left
    && !(directions.contains .number && directions.contains .arabicNumber)
    && (lastDirection? directions).any (· != .neutral)

/-- From left to right: no letters or digits of the other direction, and a letter or digit at the
end. -/
def isLeftward (directions : List Direction) : Bool :=
  !directions.contains .right && !directions.contains .arabicNumber
    && (lastDirection? directions).any (· != .neutral)

/-- Only a label that holds anything of the other direction is looked at. -/
def hasOneDirection (label : List Char) : Bool :=
  let directions := label.map Direction.of
  if directions.contains .right || directions.contains .arabicNumber then
    match directions.head? with
    | some .right => isRightward directions
    | some .left => isLeftward directions
    | _ => false
  else true

end CodeDeck.Hostname
