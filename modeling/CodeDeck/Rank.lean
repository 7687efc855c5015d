import CodeDeck.Extract.Blocks

/-!
Ranking of blocks: of blocks with the same name and kind the first one stays, and the better score
comes first. Blocks of middling length with documentation score best, functions before types.
-/

namespace CodeDeck.Rank

def lengthPoints (isIdeal isFair : Bool) : Nat := if isIdeal then 10 else if isFair then 5 else 0

def docPoints (isDocumented : Bool) : Nat := if isDocumented then 5 else 0

def kindPoints : BlockKind → Nat
  | .function => 3
  | .type => 2
  | _ => 0

def score (b : Block) : Nat :=
  lengthPoints (8 ≤ b.lineCount && b.lineCount ≤ 25) (4 ≤ b.lineCount && b.lineCount ≤ 35)
    + docPoints b.doc?.isSome + kindPoints b.kind

variable {α κ : Type} [DecidableEq κ]

/-- The items whose label is neither in `seen` nor that of an earlier item. -/
def firsts (label : α → κ) (seen : List κ) : List α → List α
  | [] => []
  | item :: rest =>
    if label item ∈ seen then firsts label seen rest
    else item :: firsts label (label item :: seen) rest

def byScore (score : α → Nat) (items : List α) : List α :=
  items.mergeSort fun a b => score b ≤ score a

def label (b : Block) : String × BlockKind := (b.name, b.kind)

def rank (blocks : List Block) : List Block := byScore score (firsts label [] blocks)

def candidates (files : List SourceFile) : List Block := files.flatMap Extract.blocks

theorem firsts_sublist (label : α → κ) (seen : List κ) (items : List α) :
    (firsts label seen items).Sublist items := by
  induction items generalizing seen with
  | nil => exact .slnil
  | cons item rest ih =>
    simp only [firsts]
    split
    · exact (ih seen).cons item
    · exact (ih _).cons_cons item

theorem rank_perm (blocks : List Block) : (rank blocks).Perm (firsts label [] blocks) :=
  List.mergeSort_perm ..

end CodeDeck.Rank
