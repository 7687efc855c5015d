import CodeDeck.Fetch.Repo
import CodeDeck.Generate
import CodeDeck.Json.Count

/-!
Which files of a repository are worth reading: source files of a known language that are neither
tests nor generated nor too large.
-/

namespace CodeDeck.Fetch

open CodeDeck.Text

def codeExtensions : List String :=
  ["ts", "tsx", "js", "jsx", "mjs", "cjs", "py", "rs", "go", "swift", "kt", "kts"]

def skipMarkers : List String :=
  ["__tests__", ".test.", ".spec.", "node_modules", ".d.ts", "dist/", "build/"]

def defaultMaxFileSize : Int := 50000

def defaultMaxFiles : Int := 40

def defaultBatchSize : Int := 8

/-- The path behind its last point, or all of it, is one of the extensions. -/
def hasCodeExtension (path : List Char) : Bool :=
  codeExtensions.contains (String.ofList (afterLast '.' path))

def hasSkipMarker (path : List Char) : Bool := skipMarkers.any fun m => contains m.toList path

/-- A size that is absent or zero is never too large. -/
def tooLarge (size limit : Json) : Except Fault Bool :=
  if size.truthy then size.exceeds limit else .ok false

def keeps (limit : Json) (e : TreeEntry) : Except Fault Bool :=
  if e.isBlob then
    match e.path with
    | .str path =>
      if hasCodeExtension path.toList && !hasSkipMarker path.toList then
        (tooLarge e.size limit).map (!·)
      else .ok false
    | path => .error (.noMember path.kind "rsplit")
  else .ok false

def select (limit : Json) : List TreeEntry → Except Fault (List Json)
  | [] => .ok []
  | e :: rest => do
    let kept ← keeps limit e
    let others ← select limit rest
    return if kept then e.path :: others else others

end CodeDeck.Fetch
