import CodeDeck.Text.Quoted

/-!
ASCII text, and where a text leaves ASCII first.
-/

namespace CodeDeck.Text

def isAscii (c : Char) : Bool := c.toNat < 128

def isControl (c : Char) : Bool := c.toNat < 32 || c.toNat == 127

/-- The first run of other characters: its first character, its offset and its length. -/
structure NotAscii where
  first : Char
  offset : Nat
  count : Nat
  deriving DecidableEq, Repr

def notAscii? (s : List Char) : Option NotAscii :=
  match s.dropWhile isAscii with
  | [] => none
  | c :: rest =>
    some ⟨c, (s.takeWhile isAscii).length, ((c :: rest).takeWhile fun d => !isAscii d).length⟩

def NotAscii.message (p : NotAscii) : String :=
  "'ascii' codec can't encode character"
    ++ (if p.count = 1 then " '" ++ String.ofList (escapeCode p.first) ++ "' in position "
        ++ toString p.offset
      else "s in position " ++ toString p.offset ++ "-" ++ toString (p.offset + p.count - 1))
    ++ ": ordinal not in range(128)"

end CodeDeck.Text
