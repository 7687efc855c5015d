import CodeDeck.Doc
import CodeDeck.Extract.Grammar
import CodeDeck.Scan.Body
import CodeDeck.Scan.Brace
import CodeDeck.Scan.Paren
import CodeDeck.Text.Uppercase

/-!
Exported declarations of TypeScript and JavaScript: functions, arrow bindings, types, interfaces and
classes, in this order. The documentation is the comment directly above a declaration.
-/

namespace CodeDeck.Extract.Curly

open CodeDeck.Text CodeDeck.Pattern CodeDeck.Scan

/-- `export function NAME <T> (`, up to and with the parenthesis. -/
def functionHead : Pattern :=
  ofList
    [word "export", blanks1, optional (.both (word "default") blanks1),
      optional (.both (word "async") blanks1), word "function", blanks, optional (word "*"), blanks,
      .keep 1 name, blanks, optional (enclosed '<' '>' (except '>')), blanks, word "("]

def typeNote : Pattern := optional (.both (word ":") (.run (exceptInLine '=') 1))

/-- `export const NAME = (PARAMETERS) =>`, up to and with the arrow. -/
def arrowHead : Pattern :=
  ofList
    [word "export", blanks1, word "const", blanks1, .keep 1 name, blanks, typeNote, blanks, word "=",
      blanks, optional (.both (word "async") blanks),
      optional (.both (enclosed '<' '>' (except '>')) blanks),
      .either (enclosed '(' ')' (except ')')) name, blanks, typeNote, blanks, word "=>"]

def typeHead : Pattern :=
  ofList
    [word "export", blanks1, optional (.both (word "declare") blanks1),
      .keep 1 (anyWord ["type", "interface"]), blanks1, .keep 2 name]

def classHead : Pattern :=
  ofList
    [word "export", blanks1, optional (.both (word "default") blanks1),
      optional (.both (word "abstract") blanks1), word "class", blanks1, .keep 1 name]

def isLetter (c : Char) : Bool := 'A' ≤ c && c ≤ 'Z' || 'a' ≤ c && c ≤ 'z'

def hasMarkup : List Char → Bool
  | [] => false
  | c :: rest =>
    (match c, rest with
    | '/', '>' :: _ => true
    | '<', '/' :: d :: _ => d == '>' || isLetter d
    | _, _ => false) || hasMarkup rest

/-- A capitalized function that renders markup is a pattern. -/
def functionKind (name code : List Char) : BlockKind :=
  if (name.head?.any isUppercase) && hasMarkup code then .pattern else .function

def functionBlock? (file : File) (m : Found) : Option Block := do
  let parametersEnd ← closingParen? file.source (m.stop - 1) defaultQuotes
  let body ← annotatedBodyBrace? file.source parametersEnd [')'] defaultQuotes
  let code ← braceBlock? file.source m.start body defaultQuotes
  file.block? (m.get 1) (functionKind (m.get 1) code) code (Doc.block? file.source m.start)

/-- The number of characters at the start of `s` after which an arrow binding without braces ends:
a semicolon in front of an empty line, or the text in front of the next declaration. -/
def arrowBreak? (s : List Char) : Option Nat :=
  let followed (lead : String) : Bool :=
    lead.toList.isPrefixOf s && ((s.drop lead.length).head?.any isBlank)
  if followed "\n\nexport" || followed "\nconst" || followed "\nfunction" || followed "\nclass" then
    some 0
  else if ";\n\n".toList.isPrefixOf s then some 1
  else none

def arrowBreakFrom? (i : Nat) : List Char → Option Nat
  | [] => none
  | c :: rest =>
    match arrowBreak? (c :: rest) with
    | some extra => some (i + extra)
    | none => arrowBreakFrom? (i + 1) rest

def arrowCap : Nat := 1000

/-- Offset of the end of the binding that starts at `start` and whose arrow ends at `arrowStop`. -/
def arrowEnd (source : List Char) (start arrowStop : Nat) : Nat :=
  let behind := source.drop arrowStop
  let rest := trimStart behind
  let braced :=
    if rest.head? = some '\x7b' then
      braceEnd defaultQuotes .code 0 (arrowStop + (behind.length - rest.length)) rest
    else none
  match braced with
  | some stop => if (source.drop stop).head? = some ';' then stop + 1 else stop
  | none =>
    match arrowBreakFrom? start (source.drop start) with
    | some stop => stop
    | none => min source.length (start + arrowCap)

def arrowBlock? (file : File) (m : Found) : Option Block :=
  let code := slice file.source m.start (arrowEnd file.source m.start m.stop)
  file.block? (m.get 1) (functionKind (m.get 1) code) code (Doc.block? file.source m.start)

def typeCap : Nat := 200

/-- The text of the type alias with which `rest` starts, at offset `start`: a braced alias ends with
its brace, any other at the first semicolon. -/
def aliasCode (source : List Char) (start : Nat) : List Char :=
  let rest := source.drop start
  let semicolon := index? [';'] rest 0
  let brace := (index? ['='] rest 0).bind (index? ['\x7b'] rest)
  let bracedFirst : Bool := match brace, semicolon with
    | some b, some s => b < s
    | some _, none => true
    | none, _ => false
  if bracedFirst then
    (braceBlock? source start (start + brace.getD 0) defaultQuotes).getD (rest.take typeCap)
  else
    match semicolon with
    | some s => rest.take (s + 1)
    | none =>
      match index? ['\n', '\n'] rest 0 with
      | some blankLine => rest.take blankLine
      | none => rest.take typeCap

def typeBlock? (file : File) (m : Found) : Option Block :=
  let code :=
    if m.get 1 = "interface".toList then
      (braceBlock? file.source m.start m.start defaultQuotes).getD
        ((file.source.drop m.start).take typeCap)
    else aliasCode file.source m.start
  file.block? (m.get 2) .type code (Doc.block? file.source m.start)

def classBlock? (file : File) (m : Found) : Option Block := do
  let last ← (m.get 1).getLast?
  let body ← annotatedBodyBrace? file.source m.stop [last] defaultQuotes
  let code ← braceBlock? file.source m.start body defaultQuotes
  file.block? (m.get 1) .concept code (Doc.block? file.source m.start)

def blocks (file : File) : List Block :=
  (functionHead.findAll file.source).filterMap (functionBlock? file)
    ++ (arrowHead.findAll file.source).filterMap (arrowBlock? file)
    ++ (typeHead.findAll file.source).filterMap (typeBlock? file)
    ++ (classHead.findAll file.source).filterMap (classBlock? file)

end CodeDeck.Extract.Curly
