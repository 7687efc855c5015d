import CodeDeck.Doc
import CodeDeck.Extract.Grammar
import CodeDeck.Scan.Indent

/-!
Top-level functions and classes of Python, told by indentation. Decorators directly above belong to a
definition; the documentation is the string that opens the body. Names that start with an underscore
are private, the constructor apart.
-/

namespace CodeDeck.Extract.Indented

open CodeDeck.Text CodeDeck.Pattern CodeDeck.Scan

/-- The start of a definition that is not indented, inside a string too. -/
def definitionHead : Pattern :=
  ofList
    [.lineStart,
      .keep 1 (anyOf [ofList [word "async", blanks1, word "def"], word "def", word "class"]),
      blanks1, .keep 2 name]

def isPrivate (name : List Char) : Bool :=
  name.head? == some '_' && name != "__init__".toList

/-- The number of decorator lines right above, given the lines from the nearest one upwards. -/
def decoratorCount (above : List (List Char)) : Nat :=
  (above.takeWhile fun line => line.head? == some '@').length

/-- The last line of the header or of the comment lines right below it. -/
def docLine (ls : List (List Char)) (start : Nat) : Nat :=
  let stop := headerEnd ls start
  let comments := (ls.drop (stop + 1)).takeWhile fun line => (trimStart line).head? == some '#'
  stop + comments.length

def lineEnd (ls : List (List Char)) (i : Nat) : Nat :=
  (ls.take (i + 1)).foldl (fun n line => n + line.length + 1) 0 - 1

def definitionBlock? (file : File) (ls : List (List Char)) (m : Found) : Option Block := do
  let isClass := m.get 1 == "class".toList
  if !isClass && isPrivate (m.get 2) then none
  else
    let start := (file.source.take m.start).count '\n'
    let body ← indentBlock? ls start
    let decorators := decoratorCount (ls.take start).reverse
    let code := joinLines ((ls.drop (start - decorators)).take decorators ++ [body])
    let doc := Doc.docstring? file.source (lineEnd ls (docLine ls start))
    file.block? (m.get 2) (if isClass then .concept else .function) code doc

def blocks (file : File) : List Block :=
  let ls := lines file.source
  (definitionHead.findAll file.source).filterMap (definitionBlock? file ls)

end CodeDeck.Extract.Indented
