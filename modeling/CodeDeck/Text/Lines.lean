import CodeDeck.Text.Blank

/-!
Lines. Only the newline character ends a line, so a text with `n` newlines has `n + 1` lines.
-/

namespace CodeDeck.Text

def splitOn (separator : Char) : List Char → List (List Char)
  | [] => [[]]
  | c :: rest =>
    if c = separator then [] :: splitOn separator rest
    else
      match splitOn separator rest with
      | first :: others => (c :: first) :: others
      | [] => [[c]]

def lines (s : List Char) : List (List Char) := splitOn '\n' s

def joinLines (ls : List (List Char)) : List Char := List.intercalate ['\n'] ls

def countLines (s : List Char) : Nat := s.count '\n' + 1

/-- The trimmed lines that are not blank, separated by single spaces; none if there is no such line. -/
def joinProse (ls : List (List Char)) : Option (List Char) :=
  match (ls.map trim).filter (· ≠ []) with
  | [] => none
  | kept => some (List.intercalate [' '] kept)

theorem splitOn_ne_nil (separator : Char) (s : List Char) : splitOn separator s ≠ [] := by
  cases s with
  | nil => simp [splitOn]
  | cons c rest =>
    simp only [splitOn]
    split
    · simp
    · split <;> simp

theorem length_splitOn (separator : Char) (s : List Char) :
    (splitOn separator s).length = s.count separator + 1 := by
  induction s with
  | nil => simp [splitOn]
  | cons c rest ih =>
    by_cases h : c = separator
    · simp [splitOn, h, ih]
    · have nonempty := splitOn_ne_nil separator rest
      simp only [splitOn, h, if_false, List.count_cons, beq_iff_eq]
      split
      · next first others found => simpa [found] using ih
      · next found => exact absurd found nonempty

theorem length_lines (s : List Char) : (lines s).length = countLines s := length_splitOn '\n' s

end CodeDeck.Text
