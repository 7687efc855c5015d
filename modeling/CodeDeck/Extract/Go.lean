import CodeDeck.Doc
import CodeDeck.Extract.Grammar
import CodeDeck.Scan.Body
import CodeDeck.Scan.Brace
import CodeDeck.Scan.Paren

/-!
Exported functions and methods of Go, and its exported structs and interfaces. Exported is what
starts with a capital; the documentation is the run of comment lines directly above.
-/

namespace CodeDeck.Extract.Go

open CodeDeck.Text CodeDeck.Pattern CodeDeck.Scan

def docMarker : List Char := ['/', '/']

def exportedName : Pattern := .keep 1 (.both (.one isCapital) (.run isWord 0))

def typeParameters : Pattern := optional (enclosed '[' ']' (except ']'))

/-- `func (RECEIVER) NAME [T] (`, up to and with the parenthesis. -/
def functionHead : Pattern :=
  ofList
    [.lineStart, word "func", blanks1, optional (.both (enclosed '(' ')' (except ')')) blanks),
      exportedName, blanks, typeParameters, blanks, word "("]

def typeHead : Pattern :=
  ofList
    [.lineStart, word "type", blanks1, exportedName, typeParameters, blanks1,
      anyWord ["struct", "interface"], blanks, .text ['\x7b']]

/-- The opening brace stands on the last line of the signature. -/
def functionBlock? (file : File) (m : Found) : Option Block := do
  let parametersEnd ← closingParen? file.source (m.stop - 1) defaultQuotes
  let body ← bodyBrace? file.source parametersEnd [['\n']]
  let code ← braceBlock? file.source m.start body defaultQuotes
  file.block? (m.get 1) .function code (Doc.line? file.source m.start docMarker)

def typeBlock? (file : File) (m : Found) : Option Block := do
  let code ← braceBlock? file.source m.start (m.stop - 1) defaultQuotes
  file.block? (m.get 1) .type code (Doc.line? file.source m.start docMarker)

def blocks (file : File) : List Block :=
  (functionHead.findAll file.source).filterMap (functionBlock? file)
    ++ (typeHead.findAll file.source).filterMap (typeBlock? file)

end CodeDeck.Extract.Go
