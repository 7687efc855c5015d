/-!
Patterns of text with ordered choice. A match is tried character by character from one place, the
preferred way first: runs and repetitions take as much as they can and give back step by step, and
an alternative is tried only when all ways of the one before it have failed.
-/

namespace CodeDeck

inductive Pattern where
  | text (s : List Char)
  | one (allowed : Char → Bool)
  /-- As many characters of a class as possible, at least `least`. -/
  | run (allowed : Char → Bool) (least : Nat)
  /-- As few characters of a class as possible. -/
  | shortRun (allowed : Char → Bool)
  | lineStart
  | both (first second : Pattern)
  | either (first second : Pattern)
  /-- As often as possible, each time for at least one character. -/
  | repeated (body : Pattern)
  /-- Remembers under `slot` the text that `body` takes. -/
  | keep (slot : Nat) (body : Pattern)

namespace Pattern

/-- A place in the text and what has been remembered on the way to it, latest first. -/
structure Place where
  offset : Nat
  previous : Option Char
  rest : List Char
  kept : List (Nat × List Char)

namespace Place

def start (s : List Char) : Place := ⟨0, none, s, []⟩

def atLineStart (p : Place) : Bool :=
  match p.previous with
  | none => true
  | some c => c == '\n'

def advance (p : Place) (c : Char) (rest : List Char) : Place :=
  { p with offset := p.offset + 1, previous := some c, rest := rest }

def keep (p : Place) (slot : Nat) (taken : List Char) : Place :=
  { p with kept := (slot, taken) :: p.kept }

def kept? (p : Place) (slot : Nat) : Option (List Char) :=
  (p.kept.find? fun entry => entry.1 == slot).map (·.2)

end Place

def takeText : List Char → Place → Option Place
  | [], p => some p
  | c :: more, p =>
    match p.rest with
    | d :: rest => if c = d then takeText more (p.advance d rest) else none
    | [] => none

/-- The places behind each number of characters of the class, the farthest first, in front of
`nearer`. -/
def runEnds (allowed : Char → Bool) (p : Place) (nearer : List Place) : List Char → List Place
  | [] => p :: nearer
  | c :: rest =>
    if allowed c then runEnds allowed (p.advance c rest) (p :: nearer) rest else p :: nearer

def firstSome (complete : Place → Option Place) : List Place → Option Place
  | [] => none
  | p :: others =>
    match complete p with
    | some done => some done
    | none => firstSome complete others

/-- Tries `body` again and again, up to `limit` times, before it completes the match. -/
def repeatBody (body : Place → (Place → Option Place) → Option Place)
    (complete : Place → Option Place) : (limit : Nat) → Place → Option Place
  | 0, p => complete p
  | limit + 1, p =>
    match body p fun q => if p.offset < q.offset then repeatBody body complete limit q else none with
    | some done => some done
    | none => complete p

/-- Matches at a place and completes the match by `complete`, which may turn a way down. `limit`
bounds the number of repetitions; the length of the text is always enough. -/
def run? (limit : Nat) : Pattern → Place → (Place → Option Place) → Option Place
  | text s, p, complete => (takeText s p).bind complete
  | one allowed, p, complete =>
    match p.rest with
    | c :: rest => if allowed c then complete (p.advance c rest) else none
    | [] => none
  | run allowed least, p, complete =>
    let ends := runEnds allowed p [] p.rest
    firstSome complete (ends.take (ends.length - least))
  | shortRun allowed, p, complete => firstSome complete (runEnds allowed p [] p.rest).reverse
  | lineStart, p, complete => if p.atLineStart then complete p else none
  | both first second, p, complete => run? limit first p fun q => run? limit second q complete
  | either first second, p, complete =>
    match run? limit first p complete with
    | some done => some done
    | none => run? limit second p complete
  | repeated body, p, complete =>
    repeatBody (fun q k => run? limit body q k) complete limit p
  | keep slot body, p, complete =>
    run? limit body p fun q => complete (q.keep slot (p.rest.take (q.offset - p.offset)))

def ofList : List Pattern → Pattern
  | [] => text []
  | [p] => p
  | p :: rest => both p (ofList rest)

def anyOf : List Pattern → Pattern
  | [] => one fun _ => false
  | [p] => p
  | p :: rest => either p (anyOf rest)

def optional (p : Pattern) : Pattern := either p (text [])

def word (s : String) : Pattern := text s.toList

def anyWord (options : List String) : Pattern := anyOf (options.map word)

end Pattern

end CodeDeck
