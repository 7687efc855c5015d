/-!
Regions of source text: code, quoted literals and comments. The region of each character follows
from the one before it and one character of look-ahead.
-/

namespace CodeDeck.Scan

inductive Region where
  | code
  | literal (quote : Char)
  | escaped (quote : Char)
  | lineComment
  /-- Between the two characters that open a block comment. -/
  | commentOpen
  | blockComment
  | commentClose
  deriving DecidableEq, Repr

def defaultQuotes : List Char := ['"', '\'', '\x60']

/-- The region behind the character `c`, which `ahead` follows. A literal ends at the next quote like
its first that no backslash precedes; `comments` tells whether comments are known. -/
def Region.next (quotes : List Char) (comments : Bool) :
    Region → (c : Char) → (ahead : Option Char) → Region
  | code, c, ahead =>
    if quotes.contains c then literal c
    else if comments && c == '/' && ahead == some '/' then lineComment
    else if comments && c == '/' && ahead == some '*' then commentOpen
    else code
  | literal quote, c, _ =>
    if c = quote then code else if c = '\\' then escaped quote else literal quote
  | escaped quote, _, _ => literal quote
  | lineComment, c, _ => if c = '\n' then code else lineComment
  | commentOpen, _, _ => blockComment
  | blockComment, c, ahead => if c = '*' ∧ ahead = some '/' then commentClose else blockComment
  | commentClose, _, _ => code

end CodeDeck.Scan
