import CodeDeck.Text.Blank
import CodeDeck.Text.Lines

/-!
Blocks by indentation: a header, which may run over several lines while brackets are open, and the
lines below it that are indented as deep as the first of them.
-/

namespace CodeDeck.Scan

open CodeDeck.Text

def indentWidth (line : List Char) : Nat := (line.takeWhile fun c => c == ' ' || c == '\t').length

/-- Opening minus closing round and square brackets in front of the first `#`. -/
def bracketBalance (line : List Char) : Int :=
  let code := line.takeWhile (· != '#')
  (code.count '(' + code.count '[' : Nat) - (code.count ')' + code.count ']' : Nat)

def headerEnd? (depth : Int) (i : Nat) : List (List Char) → Option Nat
  | [] => none
  | line :: rest =>
    let depth := depth + bracketBalance line
    if depth ≤ 0 then some i else headerEnd? depth (i + 1) rest

/-- The last line of the header that starts at line `start`; `start` itself if it never ends. -/
def headerEnd (ls : List (List Char)) (start : Nat) : Nat :=
  (headerEnd? 0 start (ls.drop start)).getD start

def dropBlankTail (ls : List (List Char)) : List (List Char) :=
  (ls.reverse.dropWhile allBlank).reverse

def bodyLines (width : Nat) (below : List (List Char)) : List (List Char) :=
  dropBlankTail (below.takeWhile fun line => allBlank line || width ≤ indentWidth line)

/-- The block whose header starts at line `start`. A body that is not indented deeper than the
header does not belong to it. -/
def indentBlock? (ls : List (List Char)) (start : Nat) : Option (List Char) :=
  if ls.length < 2 then none
  else
    match ls[start]? with
    | none => none
    | some header =>
      let stop := headerEnd ls start
      let below := ls.drop (stop + 1)
      let width := match below.find? fun line => !allBlank line with
        | some line => indentWidth line
        | none => 0
      let head := (ls.drop start).take (stop + 1 - start)
      some (joinLines (if width ≤ indentWidth header then head else head ++ bodyLines width below))

end CodeDeck.Scan
