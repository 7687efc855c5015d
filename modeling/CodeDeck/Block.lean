import CodeDeck.Path
import CodeDeck.Text.Lines

/-!
Blocks: fragments of code worth learning. A block holds trimmed code that is not empty and no longer
than its kind allows; longer code is dropped, never cut.
-/

namespace CodeDeck

open CodeDeck.Text

inductive BlockKind where
  | function | type | concept | pattern | file
  /-- A kind of no known meaning, for which there is no limit and no standard explanation. -/
  | other (name : String)
  deriving DecidableEq, Repr

namespace BlockKind

def name : BlockKind → String
  | function => "function"
  | type => "type"
  | concept => "concept"
  | pattern => "pattern"
  | file => "file"
  | other name => name

def ofName : String → BlockKind
  | "function" => function
  | "type" => type
  | "concept" => concept
  | "pattern" => pattern
  | "file" => file
  | name => other name

def lineLimit? : BlockKind → Option Nat
  | function => some 40
  | type => some 30
  | concept => some 50
  | pattern => some 50
  | file => some 40
  | other _ => none

end BlockKind

structure Block where
  name : String
  kind : BlockKind
  code : String
  filePath : String
  language : String
  docText : Option String
  lineCount : Nat
  deriving DecidableEq, Repr

structure SourceFile where
  path : String
  content : String
  deriving DecidableEq, Repr

namespace Block

/-- The block of the trimmed code, unless that is empty or has more lines than its kind allows. -/
def ofCode? (name : List Char) (kind : BlockKind) (code : List Char) (filePath language : String)
    (doc : Option (List Char)) : Option Block :=
  let code := trim code
  if code = [] then none
  else
    match kind.lineLimit? with
    | none => none
    | some limit =>
      if limit < countLines code then none
      else
        some
          { name := String.ofList name
            kind := kind
            code := String.ofList code
            filePath := filePath
            language := language
            docText := doc.map String.ofList
            lineCount := countLines code }

/-- The whole file as one block, unless it is blank or has too many lines, blank ones included. -/
def ofFile? (filePath : String) (content : List Char) (language : String) : Option Block :=
  if allBlank content then none
  else if 40 < countLines content then none
  else
    let name := match Path.baseName filePath.toList with
      | [] => filePath.toList
      | name => name
    ofCode? name .file content filePath language none

def doc? (b : Block) : Option String :=
  match b.docText with
  | some "" => none
  | doc => doc

theorem ofCode?_fields {name code : List Char} {kind : BlockKind} {filePath language : String}
    {doc : Option (List Char)} {b : Block}
    (h : ofCode? name kind code filePath language doc = some b) :
    b.kind = kind ∧ b.filePath = filePath ∧ b.language = language ∧
      b.code = String.ofList (trim code) ∧ b.lineCount = countLines (trim code) ∧
      b.docText = doc.map String.ofList := by
  simp only [ofCode?] at h
  split at h
  · exact absurd h (by simp)
  split at h
  · exact absurd h (by simp)
  split at h
  · exact absurd h (by simp)
  obtain rfl := Option.some.inj h
  exact ⟨rfl, rfl, rfl, rfl, rfl, rfl⟩

end Block

end CodeDeck
