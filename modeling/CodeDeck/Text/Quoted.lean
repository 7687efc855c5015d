import CodeDeck.Text.Printable

/-!
Text quoted inside a message. Single quotes enclose it, or double quotes when it holds a single
quote and no double one. The backslash, the enclosing quote and whatever is not printable are
escaped.
-/

namespace CodeDeck.Text

def hexDigits : (width n : Nat) → List Char
  | 0, _ => []
  | width + 1, n => hexDigits width (n / 16) ++ [Nat.digitChar (n % 16)]

def enclosingQuote (s : List Char) : Char :=
  if s.contains '\'' && !s.contains '"' then '"' else '\''

/-- The code of a character in as few digits as its size allows. -/
def escapeCode (c : Char) : List Char :=
  if c.toNat < 0x100 then '\\' :: 'x' :: hexDigits 2 c.toNat
  else if c.toNat < 0x10000 then '\\' :: 'u' :: hexDigits 4 c.toNat
  else '\\' :: 'U' :: hexDigits 8 c.toNat

def escapeChar (quote c : Char) : List Char :=
  if c = quote ∨ c = '\\' then ['\\', c]
  else if c = '\n' then ['\\', 'n']
  else if c = '\r' then ['\\', 'r']
  else if c = '\t' then ['\\', 't']
  else if isPrintable c then [c]
  else escapeCode c

def quoted (s : List Char) : List Char :=
  let quote := enclosingQuote s
  quote :: s.flatMap (escapeChar quote) ++ [quote]

def quotedString (s : String) : String := String.ofList (quoted s.toList)

end CodeDeck.Text
