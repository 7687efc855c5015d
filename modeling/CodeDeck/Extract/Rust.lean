import CodeDeck.Doc
import CodeDeck.Extract.Grammar
import CodeDeck.Scan.Body
import CodeDeck.Scan.Brace
import CodeDeck.Scan.Paren

/-!
Public functions and types of Rust, and its `impl` blocks. A declaration begins with the attribute
lines directly above it; the documentation is the run of comment lines above those. A single quote
opens no literal, since it mostly starts a lifetime.
-/

namespace CodeDeck.Extract.Rust

open CodeDeck.Text CodeDeck.Pattern CodeDeck.Scan

def docMarker : List Char := ['/', '/', '/']

def quotes : List Char := ['"']

/-- Lines such as `#[derive(Debug)]`, and the indentation. -/
def attributes : Pattern :=
  ofList
    [.lineStart, indent,
      .repeated (ofList [word "#[", .run (· != '\n') 0, word "]", indent, word "\n", indent])]

def isPathChar (c : Char) : Bool := isWord c || c == ':'

def visibility : Pattern :=
  ofList
    [word "pub",
      optional (ofList [word "(", .run (fun c => isPathChar c || isBlank c) 1, word ")"]), blanks1]

def functionModifiers : Pattern :=
  .repeated
    (.both
      (.either (anyWord ["async", "const", "unsafe"])
        (ofList [word "extern", blanks1, word "\"", name, word "\""]))
      blanks1)

def functionHead : Pattern :=
  ofList [attributes, visibility, functionModifiers, word "fn", blanks1, .keep 1 name]

def typeHead : Pattern :=
  ofList
    [attributes, visibility, .keep 1 (anyWord ["struct", "enum", "trait", "union", "type"]), blanks1,
      .keep 2 name]

/-- Angle brackets around anything on one line without a brace. -/
def generics : Pattern :=
  optional (ofList [word "<", .shortRun (exceptInLine '\x7b'), word ">"])

def implHead : Pattern :=
  ofList
    [attributes, optional (.both (word "unsafe") blanks1), word "impl", generics, blanks1,
      optional
        (ofList [.keep 1 (.run isPathChar 1), generics, blanks1, word "for", blanks1]),
      .keep 2 (.run isPathChar 1)]

def functionBlock? (file : File) (m : Found) : Option Block := do
  let parameters ← index? ['('] file.source m.stop
  let parametersEnd ← closingParen? file.source parameters quotes
  let body ← bodyBrace? file.source parametersEnd [[';']]
  let code ← braceBlock? file.source m.start body quotes
  file.block? (m.get 1) .function code (Doc.line? file.source m.start docMarker)

/-- The text from `start` through the first semicolon behind `stop`, not farther than a window. -/
def throughSemicolon? (source : List Char) (start stop : Nat) : Option (List Char) :=
  (index? [';'] (slice source stop (stop + Doc.window)) 0).map fun i =>
    slice source start (stop + i + 1)

/-- A type without a body of braces ends at its semicolon. -/
def typeBlock? (file : File) (m : Found) : Option Block := do
  let body :=
    if m.get 1 = "type".toList then none else bodyBrace? file.source m.stop [[';']]
  let code ← match body with
    | some brace => braceBlock? file.source m.start brace quotes
    | none => throughSemicolon? file.source m.start m.stop
  file.block? (m.get 2) .type code (Doc.line? file.source m.start docMarker)

def implName (m : Found) : List Char :=
  match m.kept? 1 with
  | some trait => trait ++ " for ".toList ++ m.get 2
  | none => m.get 2

def implBlock? (file : File) (m : Found) : Option Block := do
  let body ← bodyBrace? file.source m.stop [[';']]
  let code ← braceBlock? file.source m.start body quotes
  file.block? (implName m) .concept code (Doc.line? file.source m.start docMarker)

def blocks (file : File) : List Block :=
  (functionHead.findAll file.source).filterMap (functionBlock? file)
    ++ (typeHead.findAll file.source).filterMap (typeBlock? file)
    ++ (implHead.findAll file.source).filterMap (implBlock? file)

end CodeDeck.Extract.Rust
