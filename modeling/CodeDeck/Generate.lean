import CodeDeck.Card
import CodeDeck.Rank
import CodeDeck.Text.Search

/-!
Cards from ranked blocks. The difficulty follows from the size and the structure of the code; the
explanation is the documentation, or a standard sentence for the kind of block.
-/

namespace CodeDeck.Generate

open CodeDeck.Text

def defaultLimit : Int := 50

/-- The greatest number of braces open at once, those in strings counted too. -/
def maxBraceDepth (code : List Char) : Int :=
  (code.foldl (fun (depth, deepest) c =>
    let depth : Int := if c = '\x7b' then depth + 1 else if c = '\x7d' then depth - 1 else depth
    (depth, max deepest depth)) ((0 : Int), (0 : Int))).2

/-- The number of calls of `name` in the text behind `previous`: the name after a word boundary, with
an opening parenthesis right behind it. The first `skip` characters belong to the call before. -/
def callCount (name : List Char) : (skip : Nat) → (previous : Option Char) → List Char → Nat
  | _, _, [] => 0
  | skip + 1, _, c :: rest => callCount name skip (some c) rest
  | 0, previous, c :: rest =>
    if previous.any isWord != isWord c && (name ++ ['(']).isPrefixOf (c :: rest) then
      callCount name name.length (some c) rest + 1
    else callCount name 0 (some c) rest

/-- The declaration itself accounts for one occurrence. -/
def isRecursive (name code : List Char) : Bool := 1 < callCount name 0 none code

def sizePoints (isLong isMiddling : Bool) : Nat := if isLong then 2 else if isMiddling then 1 else 0

def nestingPoints (code : List Char) : Nat :=
  if 4 < maxBraceDepth code then 2 else if 2 < maxBraceDepth code then 1 else 0

def structurePoints (code : List Char) : Nat :=
  nestingPoints code
    + (if code.contains '<' && code.contains '>' then 1 else 0)
    + (if contains "async".toList code || contains "await".toList code then 1 else 0)

def complexity (b : Block) : Nat :=
  sizePoints (20 < b.lineCount) (10 < b.lineCount) + structurePoints b.code.toList
    + (if b.kind = .function && isRecursive b.name.toList b.code.toList then 2 else 0)

def difficultyOf (complexity : Nat) : Int :=
  if 4 ≤ complexity then 3 else if 2 ≤ complexity then 2 else 1

def difficulty (b : Block) : Int := difficultyOf (complexity b)

def standardExplanation (kind : BlockKind) (place name : String) : Except Fault String :=
  match kind with
  | .function =>
    .ok ("Exported function" ++ place ++ ". Read the code to understand what " ++ name
      ++ " does and when you'd use it.")
  | .type =>
    .ok ("Type definition" ++ place ++ ". Defines the shape of " ++ name
      ++ "; study the fields and their constraints.")
  | .concept =>
    .ok ("Class" ++ place ++ ". Encapsulates " ++ name
      ++ "; look at the methods and how state is managed.")
  | .pattern => .ok ("Pattern" ++ place ++ ". A reusable approach to a recurring problem.")
  | .file =>
    .ok ("Key file" ++ place ++ ". Read through to understand the module's responsibilities.")
  | .other name => .error (.unknownKind (quotedString name))

def place (path : List Char) : String :=
  match Path.directory path with
  | [] => ""
  | directory => " in " ++ String.ofList directory

def explanation (b : Block) : Except Fault String :=
  match b.doc? with
  | some doc => .ok doc
  | none => standardExplanation b.kind (place b.filePath.toList) b.name

def cardId (index : Nat) (name : String) : String := "gen-" ++ toString index ++ "-" ++ name

def card (index : Nat) (b : Block) : Except Fault Card :=
  (explanation b).map fun text =>
    { id := .str (cardId index b.name)
      kind := .str b.kind.name
      title := .str b.name
      filePath := .str b.filePath
      code := .str b.code
      language := .str b.language
      explanation := .str text
      difficulty := .int (difficulty b) }

/-- The first items up to a bound; a negative bound leaves out as many at the end. -/
def upTo {α : Type} (limit : Option Int) (items : List α) : List α :=
  match limit with
  | none => items
  | some n => items.take (resolveOffset items.length n)

def cardsFrom (index : Nat) : List Block → Except Fault (List Card)
  | [] => .ok []
  | b :: rest => do
    let first ← card index b
    let others ← cardsFrom (index + 1) rest
    return first :: others

def cards (blocks : List Block) (limit : Option Int) : Except Fault (List Card) :=
  cardsFrom 0 (upTo limit blocks)

def ofFiles (files : List SourceFile) (limit : Json) : Except Fault (List Card) :=
  match Rank.rank (Rank.candidates files) with
  | [] => .error .nothingLearnable
  | ranked => limit.asBound.bind (cards ranked)

end CodeDeck.Generate
