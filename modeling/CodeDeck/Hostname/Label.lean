import CodeDeck.Hostname.Composition
import CodeDeck.Hostname.Context
import CodeDeck.Hostname.Direction
import CodeDeck.Hostname.Letters
import CodeDeck.Text.Ascii
import CodeDeck.Text.Lines
import CodeDeck.Text.Punycode

/-!
Labels, the parts of a host name between its points, and the form in which labels of any script are
written in ASCII.
-/

namespace CodeDeck.Hostname

open CodeDeck.Text

def hasFirmEnds (label : List Char) : Bool :=
  label.head? != some '-' && label.getLast? != some '-'
    && (label.drop 2).take 2 != ['-', '-']

def allFit (before : List Char) : List Char → Bool
  | [] => true
  | c :: rest => (isLetter c || fitsContext c before rest) && allFit (c :: before) rest

def isLabel (label : List Char) : Bool :=
  !label.isEmpty && isComposed label && hasFirmEnds label && !label.head?.any isMark
    && allFit [] label && hasOneDirection label

def codeMark : List Char := "xn--".toList

/-- Does a label in ASCII stand for itself or for a label? -/
def isAsciiLabel (label : List Char) : Bool :=
  if codeMark.isPrefixOf label then
    let code := label.drop codeMark.length
    code.getLast?.any (· != '-') && (Punycode.decode? code).any isLabel
  else isLabel label

/-- The label in ASCII, of at most 63 characters. -/
def asciiLabel? (label : List Char) : Option (List Char) :=
  let written :=
    if label.all isAscii then if isAsciiLabel label then some label else none
    else if isLabel label then some (codeMark ++ Punycode.encode label)
    else none
  written.filter fun ascii => ascii.length ≤ 63

def isPoint (c : Char) : Bool :=
  c == '.' || c.toNat == 0x3002 || c.toNat == 0xFF0E || c.toNat == 0xFF61

def asciiLabels? : List (List Char) → Option (List (List Char))
  | [] => some []
  | label :: rest => do
    let first ← asciiLabel? label
    let others ← asciiLabels? rest
    return first :: others

/-- The name in ASCII. A point may stand at the end. -/
def asciiName? (name : List Char) : Option (List Char) :=
  let labels := splitOn '.' (name.map fun c => if isPoint c then '.' else c)
  let rooted := labels.getLast? == some []
  match asciiLabels? (if rooted then labels.dropLast else labels) with
  | none => none
  | some ascii =>
    let written := List.intercalate ['.'] ascii ++ if rooted then ['.'] else []
    if written.length ≤ (if rooted then 254 else 253) then some written else none

end CodeDeck.Hostname
