import CodeDeck.Generate
import CodeDeck.Json.Count
import CodeDeck.Record.Basic

/-!
Cards from blocks as they are handed in. Documentation of any type is kept as the explanation.
-/

namespace CodeDeck.BlockRecord

open CodeDeck.Generate

def complexity (b : BlockRecord) : Except Fault Nat := do
  let isLong ← b.lineCount.exceeds (.int 20)
  let isMiddling ← b.lineCount.exceeds (.int 10)
  let points := sizePoints isLong isMiddling + structurePoints b.code.toList
  if b.kind.same (.str "function") then
    let name ← b.name.asText
    return points + if isRecursive name.toList b.code.toList then 2 else 0
  else return points

def complexities : List BlockRecord → Except Fault (List Nat)
  | [] => .ok []
  | b :: rest => do
    let first ← b.complexity
    let others ← complexities rest
    return first :: others

def explanation (b : BlockRecord) : Except Fault Json :=
  if b.docText.truthy then .ok b.docText
  else do
    let path ← b.filePath.textWith "split"
    let kind ← BlockKind.ofJson b.kind
    return .str (← standardExplanation kind (place path.toList) b.name.display)

def card (index : Nat) (b : BlockRecord) : Except Fault Card := do
  let explanation ← b.explanation
  let complexity ← b.complexity
  return {
    id := .str (cardId index b.name.display)
    kind := b.kind
    title := b.name
    filePath := b.filePath
    code := .str b.code
    language := b.language
    explanation := explanation
    difficulty := .int (difficultyOf complexity) }

def cardsFrom (index : Nat) : List BlockRecord → Except Fault (List Card)
  | [] => .ok []
  | b :: rest => do
    let first ← card index b
    let others ← cardsFrom (index + 1) rest
    return first :: others

def cards (blocks : List BlockRecord) (limit : Json) : Except Fault (List Card) := do
  cardsFrom 0 (upTo (← limit.asBound) blocks)

end CodeDeck.BlockRecord
