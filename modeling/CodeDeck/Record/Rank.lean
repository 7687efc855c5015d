import CodeDeck.Json.Count
import CodeDeck.Rank
import CodeDeck.Record.Basic

/-!
Ranking of blocks as they are handed in. Names and kinds have to be values that can be looked up, and
line counts have to be numbers.
-/

namespace CodeDeck.BlockRecord

def lies (low high : Int) (v : Json) : Bool := v.atLeast low && v.atMost high

def score (b : BlockRecord) : Except Fault Nat :=
  if b.lineCount.isNumber then
    .ok
      (Rank.lengthPoints (lies 8 25 b.lineCount) (lies 4 35 b.lineCount)
        + Rank.docPoints b.docText.truthy
        + match b.kind with
          | .str name => Rank.kindPoints (.ofName name)
          | _ => 0)
  else .error .wrongType

def label (b : BlockRecord) : Json.Key × Json.Key := (b.name.key, b.kind.key)

def scored : List BlockRecord → Except Fault (List (BlockRecord × Nat))
  | [] => .ok []
  | b :: rest => do
    let points ← b.score
    let others ← scored rest
    return (b, points) :: others

def rank (blocks : List BlockRecord) : Except Fault (List (BlockRecord × Nat)) :=
  if blocks.all fun b => b.name.isKey && b.kind.isKey then
    (scored (Rank.firsts label [] blocks)).map (Rank.byScore (·.2))
  else .error .wrongType

end CodeDeck.BlockRecord
