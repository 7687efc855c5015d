import CodeDeck.Fault
import CodeDeck.Scan.Body
import CodeDeck.Scan.Brace
import CodeDeck.Scan.Indent

/-!
Scans from signed offsets. A negative offset counts from the end, and a scan from there goes on at the
front when it has come to the end; offsets that it finds before that are negative as well. There is
nothing to scan in front of the text.
-/

namespace CodeDeck.Scan

open CodeDeck.Text

/-- The last items, as many as the negative offset tells. -/
def tail {α : Type} (items : List α) (offset : Int) : List α := items.drop (items.length + offset).toNat

/-- Offset just past the brace that closes the first balanced unit, where `rest` is what is left in
front of the end and starts at the negative offset `i`. A comment that begins here ends at its close
or at the end; only a block comment whose text would start at the front goes on there. -/
def tailBraceEnd (source quotes : List Char) :
    Region → (depth : Nat) → (i : Int) → (rest : List Char) → Option Int
  | region, depth, _, [] => (braceEnd quotes region depth 0 source).map Int.ofNat
  | region, depth, i, c :: rest =>
    if region = .code ∧ c = '\x7b' then tailBraceEnd source quotes .code (depth + 1) (i + 1) rest
    else if region = .code ∧ c = '\x7d' then
      if depth = 1 then some (i + 1)
      else tailBraceEnd source quotes .code (depth - 1) (i + 1) rest
    else
      let next := region.next quotes true c (rest ++ source).head?
      if next = .lineComment ∨ next = .commentOpen ∧ 1 < rest.length then
        (braceEnd quotes next depth (source.length - rest.length) rest).map Int.ofNat
      else tailBraceEnd source quotes next depth (i + 1) rest

def signedBraceBlock? (source : List Char) (start scanFrom : Int) (quotes : List Char) :
    Except Fault (Option (List Char)) :=
  let cutTo (stop : Int) : List Char :=
    slice source (resolveOffset source.length start) (resolveOffset source.length stop)
  if source.length + scanFrom < 0 then .error .outOfBounds
  else if scanFrom < 0 then
    .ok ((tailBraceEnd source quotes .code 0 scanFrom (tail source scanFrom)).map cutTo)
  else
    .ok ((braceEnd quotes .code 0 scanFrom.toNat (source.drop scanFrom.toNat)).map fun stop =>
      cutTo stop)

def signedBodyBrace? (source : List Char) (pos : Int) (previous quotes : List Char) :
    Except Fault (Option Int) :=
  if source.length + pos < 0 then .error .outOfBounds
  else if pos < 0 then
    .ok ((annotatedBodyBrace? (tail source pos ++ source) 0 previous quotes).map (pos + ·))
  else .ok ((annotatedBodyBrace? source pos.toNat previous quotes).map Int.ofNat)

def signedHeaderEnd (ls : List (List Char)) (start : Int) : Except Fault Int :=
  if ls.length + start < 0 then .error .outOfBounds
  else if start < 0 then .ok (start + headerEnd (tail ls start ++ ls) 0)
  else .ok (headerEnd ls start.toNat)

def signedBrace? (source : List Char) (pos : Int) (terminators : List (List Char)) : Option Nat :=
  bodyBrace? source (resolveOffset source.length pos) terminators

end CodeDeck.Scan
