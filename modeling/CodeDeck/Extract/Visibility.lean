import CodeDeck.Extract.Grammar
import CodeDeck.Scan.Body
import CodeDeck.Scan.Brace
import CodeDeck.Scan.Paren

/-!
Functions and types that Swift or Kotlin marks as public or open. Protocols and interfaces are types,
the others concepts; there is no documentation. The opening brace stands on the line of the
signature, so that a line end in front of any brace means that there is no body.
-/

namespace CodeDeck.Extract.Visibility

open CodeDeck.Text CodeDeck.Pattern CodeDeck.Scan

/-- Annotations such as `@objc(name)`, in front of the visibility. -/
def opening : Pattern :=
  ofList
    [.lineStart, indent,
      .repeated
        (ofList [word "@", name, optional (enclosed '(' ')' (exceptInLine ')')), blanks1]),
      anyWord ["public", "open"], blanks1]

def functionModifiers : List String :=
  ["static", "class", "final", "override", "mutating", "nonmutating", "async", "suspend", "inline",
    "operator", "infix", "tailrec"]

def typeModifiers : List String :=
  ["final", "abstract", "sealed", "data", "enum", "indirect", "inner", "value", "annotation", "fun"]

def isReceiverChar (c : Char) : Bool := isWord c || c == '.' || c == '<' || c == '>'

def functionHead : Pattern :=
  ofList
    [opening, modifiers functionModifiers, anyWord ["func", "fun"], blanks1,
      optional (.both (enclosed '<' '>' (exceptInLine '>')) blanks),
      optional (.both (.run isReceiverChar 1) (word ".")), .keep 1 name]

def typeHead : Pattern :=
  ofList
    [opening, modifiers typeModifiers,
      .keep 1 (anyWord ["struct", "class", "enum", "protocol", "interface", "object", "actor"]),
      blanks1, .keep 2 name]

/-- A parameter list right behind a type's name. -/
def constructorHead : Pattern :=
  ofList [blanks, optional (enclosed '<' '>' (exceptInLine '>')), blanks, word "("]

def functionBlock? (file : File) (m : Found) : Option Block := do
  let parameters ← index? ['('] file.source m.stop
  let parametersEnd ← closingParen? file.source parameters defaultQuotes
  let body ← bodyBrace? file.source parametersEnd [['\n'], [';'], ['=']]
  let code ← braceBlock? file.source m.start body defaultQuotes
  file.block? (m.get 1) .function code none

def headerEnd? (source : List Char) (stop : Nat) : Option Nat :=
  match matchAt? constructorHead source.length (Place.start (source.drop stop)) with
  | some m => closingParen? source (stop + m.stop - 1) defaultQuotes
  | none => some stop

def typeKind (keyword : List Char) : BlockKind :=
  if keyword = "protocol".toList ∨ keyword = "interface".toList then .type else .concept

def typeBlock? (file : File) (m : Found) : Option Block := do
  let stop ← headerEnd? file.source m.stop
  let body ← bodyBrace? file.source stop [['\n'], [';']]
  let code ← braceBlock? file.source m.start body defaultQuotes
  file.block? (m.get 2) (typeKind (m.get 1)) code none

def blocks (file : File) : List Block :=
  (functionHead.findAll file.source).filterMap (functionBlock? file)
    ++ (typeHead.findAll file.source).filterMap (typeBlock? file)

end CodeDeck.Extract.Visibility
