/-!
Punycode: a text of any characters written in ASCII. The ASCII characters come first; the others
follow as numbers in base 36 that tell, in the order of their codes, where each is to be inserted.
-/

namespace CodeDeck.Text.Punycode

def firstCode : Nat := 128

def firstBias : Nat := 72

def digit (v : Nat) : Char := if v < 26 then Char.ofNat (v + 97) else Char.ofNat (v + 22)

def digitValue? (c : Char) : Option Nat :=
  if 'a' ≤ c && c ≤ 'z' then some (c.toNat - 97)
  else if 'A' ≤ c && c ≤ 'Z' then some (c.toNat - 65)
  else if '0' ≤ c && c ≤ '9' then some (c.toNat - 22)
  else none

/-- A digit below the threshold of its place is the last one of a number. -/
def threshold (place bias : Nat) : Nat := max 1 (min 26 (place - bias))

theorem threshold_pos (place bias : Nat) : 1 ≤ threshold place bias := Nat.le_max_left ..

theorem threshold_le (place bias : Nat) : threshold place bias ≤ 26 := by
  unfold threshold
  omega

/-- How often a number has to be divided by 35 until it is at most 455, and what it is then. -/
def scaleDown (n : Nat) : Nat × Nat :=
  if 455 < n then
    let (times, rest) := scaleDown (n / 35)
    (times + 1, rest)
  else (0, n)
termination_by n
decreasing_by exact Nat.div_lt_self (by omega) (by omega)

/-- The bias behind the number `delta`, with which the text has come to `count` characters. -/
def adapt (delta count : Nat) (isFirst : Bool) : Nat :=
  let halved := if isFirst then delta / 700 else delta / 2
  let (times, rest) := scaleDown (halved + halved / count)
  36 * times + 36 * rest / (rest + 38)

def digits (bias place n : Nat) : List Char :=
  let t := threshold place bias
  if n < t then [digit n]
  else digit (t + (n - t) % (36 - t)) :: digits bias (place + 36) ((n - t) / (36 - t))
termination_by n
decreasing_by
  have least := threshold_pos place bias
  have most := threshold_le place bias
  exact Nat.lt_of_le_of_lt (Nat.div_le_self ..) (by omega)

/-- Between two insertions: the places passed over since the last one, the bias, and the number of
characters that are written already. -/
structure Writer where
  delta : Nat
  bias : Nat
  written : Nat
  isFirst : Bool

def insertions (code : Nat) (w : Writer) : List Char → List Char × Writer
  | [] => ([], w)
  | c :: rest =>
    if c.toNat < code then insertions code { w with delta := w.delta + 1 } rest
    else if c.toNat = code then
      let bias := adapt w.delta (w.written + 1) w.isFirst
      let (later, left) := insertions code ⟨0, bias, w.written + 1, false⟩ rest
      (digits w.bias 36 w.delta ++ later, left)
    else insertions code w rest

/-- The numbers for all characters whose codes are listed, from smallest to largest; `next` is the
least code that may come. -/
def insertAll (s : List Char) (next : Nat) (w : Writer) : List Nat → List Char
  | [] => []
  | code :: codes =>
    let w := { w with delta := w.delta + (code - next) * (w.written + 1) }
    let (now, w) := insertions code w s
    now ++ insertAll s (code + 1) { w with delta := w.delta + 1 } codes

def sortedCodes (codes : List Nat) : List Nat := (codes.mergeSort (· ≤ ·)).eraseDups

def encode (s : List Char) : List Char :=
  let basic := s.filter fun c => c.toNat < firstCode
  let codes := (s.map Char.toNat).filter (firstCode ≤ ·)
  let numbers := insertAll s firstCode ⟨0, firstBias, basic.length, true⟩ (sortedCodes codes)
  if basic.isEmpty then numbers else basic ++ '-' :: numbers

/-- A number in the making: its value so far, and weight and place of the next digit. -/
structure Reader where
  text : List Char
  code : Nat
  position : Nat
  bias : Nat
  isFirst : Bool
  delta : Nat
  weight : Nat
  place : Nat

def Reader.insert? (r : Reader) (delta : Nat) : Option Reader :=
  let count := r.text.length + 1
  let place := r.position + delta
  let code := r.code + place / count
  if code.isValidChar then
    some
      { text := r.text.insertIdx (place % count) (Char.ofNat code)
        code := code
        position := place % count + 1
        bias := adapt delta count r.isFirst
        isFirst := false
        delta := 0
        weight := 1
        place := 36 }
  else none

def Reader.digit? (r : Reader) (v : Nat) : Option Reader :=
  let t := threshold r.place r.bias
  let delta := r.delta + v * r.weight
  if v < t then r.insert? delta
  else some { r with delta := delta, weight := r.weight * (36 - t), place := r.place + 36 }

def Reader.finish? (r : Reader) : List Char → Option (List Char)
  | [] => if r.weight = 1 then some r.text else none
  | c :: rest => do
    let r ← r.digit? (← digitValue? c)
    r.finish? rest

/-- The text of a code. The last hyphen stands between the ASCII characters and the numbers. -/
def decode? (s : List Char) : Option (List Char) :=
  let numbers := (s.reverse.takeWhile (· != '-')).reverse
  let basic := s.take (s.length - numbers.length - 1)
  Reader.finish? ⟨basic, firstCode, 0, firstBias, true, 0, 1, 36⟩ numbers

end CodeDeck.Text.Punycode
