import CodeDeck.Text.Search

/-!
Paths of files in a repository, with slashes between their parts.
-/

namespace CodeDeck.Path

open CodeDeck.Text

def baseName (path : List Char) : List Char := afterLast '/' path

def directory (path : List Char) : List Char :=
  path.take (path.length - (baseName path).length - 1)

/-- The part of the base name behind its last point, if it has a point. -/
def extension? (path : List Char) : Option (List Char) :=
  let name := baseName path
  if name.contains '.' then some (afterLast '.' name) else none

end CodeDeck.Path
