import CodeDeck.Block
import CodeDeck.Json.Key
import CodeDeck.Json.Read

/-!
Blocks and files as they are handed in, with fields of any type. A field of the wrong type is a fault
only where it is needed.
-/

namespace CodeDeck

open CodeDeck.Text

structure BlockRecord where
  name : Json
  kind : Json
  code : String
  filePath : Json
  language : Json
  docText : Json
  lineCount : Json
  deriving Repr

namespace BlockRecord

def ofBlock (b : Block) : BlockRecord :=
  { name := .str b.name
    kind := .str b.kind.name
    code := b.code
    filePath := .str b.filePath
    language := .str b.language
    docText := Json.ofOption .str b.docText
    lineCount := .int b.lineCount }

def fields (b : BlockRecord) : List (String × Json) :=
  [("name", b.name), ("kind", b.kind), ("code", .str b.code), ("file_path", b.filePath),
    ("language", b.language), ("doc_text", b.docText), ("line_count", b.lineCount)]

def toJson (b : BlockRecord) : Json := .obj b.fields

/-- Only the code is required. Absent fields are those of `defaults`, but the line count is that of the
code. -/
def ofJson (defaults : BlockRecord) (v : Json) : Except Fault BlockRecord := do
  let code ← (← v.require "code").textWith "count"
  let v ← v.filled { defaults with lineCount := .int (countLines code.toList) }.fields
  return {
    name := ← v.require "name"
    kind := ← v.require "kind"
    code := code
    filePath := ← v.require "file_path"
    language := ← v.require "language"
    docText := ← v.require "doc_text"
    lineCount := ← v.require "line_count" }

end BlockRecord

def BlockKind.ofJson : Json → Except Fault BlockKind
  | .str name => .ok (ofName name)
  | v => .error (if v.isKey then .unknownKind v.displayInner else .wrongType)

/-- The file of a path and a content, unless the content is blank; then the path does not matter. -/
def SourceFile.ofJson? (path content : Json) : Except Fault (Option SourceFile) :=
  if content.truthy then do
    let content ← content.textWith "strip"
    if allBlank content.toList then return none
    else return some ⟨← path.textWith "split", content⟩
  else .ok none

end CodeDeck
