import CodeDeck.Extract.Curly
import CodeDeck.Extract.Go
import CodeDeck.Extract.Indented
import CodeDeck.Extract.Rust
import CodeDeck.Extract.Visibility
import CodeDeck.Language

/-!
The blocks of a file. Each language has its extractor; a file in which none is found becomes one
block as a whole if it is short.
-/

namespace CodeDeck.Extract

open CodeDeck.Text

def extractor : Language → File → List Block
  | .python => Indented.blocks
  | .rust => Rust.blocks
  | .go => Go.blocks
  | .swift => Visibility.blocks
  | .kotlin => Visibility.blocks
  | .typescript => Curly.blocks
  | .javascript => Curly.blocks
  | .text => Curly.blocks

def declarations (language path : String) (content : List Char) : List Block :=
  extractor (.ofName language) ⟨path, content, language⟩

/-- The blocks found, or the whole file when there are none. -/
def orWholeFile (path : String) (content : List Char) (language : String) :
    List Block → List Block
  | [] => (Block.ofFile? path content language).toList
  | found => found

def fileBlocks (file : SourceFile) (found : List Block) : List Block :=
  let content := file.content.toList
  if allBlank content then []
  else orWholeFile file.path content (Language.ofPath file.path).name found

def blocks (file : SourceFile) : List Block :=
  fileBlocks file
    (declarations (Language.ofPath file.path).name file.path file.content.toList)

end CodeDeck.Extract
