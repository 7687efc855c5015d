import CodeDeck.Extract.Blocks
import CodeDeck.Record.Basic

/-!
Blocks from code and files as they are handed in. Paths, languages, names and documentation of any
type pass through to the blocks.
-/

namespace CodeDeck.BlockRecord

open CodeDeck.Text

/-- The block of the trimmed code. A kind that has no limit is a fault, unless the code is blank. -/
def ofCode? (name kind code filePath language doc : Json) : Except Fault (Option BlockRecord) := do
  let code ← code.textWith "strip"
  if allBlank code.toList then return none
  else
    let known ← BlockKind.ofJson kind
    if known.lineLimit?.isNone then throw (.unknownKind kind.displayInner)
    else
      return (Block.ofCode? [] known code.toList "" "" none).map fun b =>
        { ofBlock b with
          name := name, filePath := filePath, language := language, docText := doc }

def ofFile? (path content language : Json) : Except Fault (Option BlockRecord) := do
  let content ← content.textWith "strip"
  if allBlank content.toList || 40 < countLines content.toList then return none
  else
    let path ← path.textWith "split"
    return (Block.ofFile? path content.toList "").map fun b =>
      { ofBlock b with language := language }

/-- The blocks of a file, or the whole file alone if its extractor is of no use. -/
def ofSource (extracts : Bool) (path content : Json) : Except Fault (List BlockRecord) :=
  (SourceFile.ofJson? path content).map fun file? =>
    match file? with
    | none => []
    | some file => (if extracts then Extract.blocks file else Extract.fileBlocks file []).map ofBlock

/-- The declarations found by the extractor of the named language. Only that of one language asks for
the lines of the content at once. -/
def ofDeclarations (language path content : Json) : Except Fault (List BlockRecord) := do
  if !language.isKey then throw .wrongType
  let extractor := match language with
    | .str name => Language.ofName name
    | _ => .text
  let content ← if extractor = .python then content.textWith "split" else content.asText
  return (Extract.declarations extractor.name "" content.toList).map fun b =>
    { ofBlock b with filePath := path, language := language }

end CodeDeck.BlockRecord
