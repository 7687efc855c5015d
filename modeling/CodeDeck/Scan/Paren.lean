import CodeDeck.Scan.Region

/-!
Balanced parentheses. Parentheses inside quoted literals do not count; comments are not known.
-/

namespace CodeDeck.Scan

def parenEnd (quotes : List Char) : Region → (depth i : Nat) → List Char → Option Nat
  | _, _, _, [] => none
  | region, depth, i, c :: rest =>
    if region = .code ∧ c = '(' then parenEnd quotes .code (depth + 1) (i + 1) rest
    else if region = .code ∧ c = ')' then
      if depth = 1 then some (i + 1) else parenEnd quotes .code (depth - 1) (i + 1) rest
    else parenEnd quotes (region.next quotes false c rest.head?) depth (i + 1) rest

/-- Offset just past the parenthesis that balances the one at `openAt`; none if there is no opening
parenthesis at that offset. -/
def closingParen? (source : List Char) (openAt : Nat) (quotes : List Char) : Option Nat :=
  match source.drop openAt with
  | '(' :: rest => parenEnd quotes .code 0 openAt ('(' :: rest)
  | _ => none

end CodeDeck.Scan
