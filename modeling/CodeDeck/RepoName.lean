import CodeDeck.Fault
import CodeDeck.Text.Blank
import CodeDeck.Text.Lowercase
import CodeDeck.Text.Search

/-!
Names of repositories, read from `owner/repo` or from an address on github.com.
-/

namespace CodeDeck

open CodeDeck.Text

structure RepoName where
  owner : String
  repo : String
  deriving DecidableEq, Repr

namespace RepoName

def fullName (r : RepoName) : String := r.owner ++ "/" ++ r.repo

def host : List Char := "github.com/".toList

def partsBehindHost? (s : List Char) : Option (List Char × List Char) :=
  let owner := s.takeWhile (· != '/')
  let repo := ((s.dropWhile (· != '/')).drop 1).takeWhile (· != '/')
  if owner = [] ∨ repo = [] then none else some (owner, repo)

/-- The parts behind the first occurrence of the host that has two parts behind it. -/
def inAddress? : List Char → Option (List Char × List Char)
  | [] => none
  | c :: rest =>
    match if host.isPrefixOf (c :: rest) then partsBehindHost? (rest.drop 10) else none with
    | some parts => some parts
    | none => inAddress? rest

def isNameChar (c : Char) : Bool := c != '/' && !isBlank c

/-- Two parts around a slash, and nothing else but perhaps a newline at the end. -/
def shortForm? (s : List Char) : Option (List Char × List Char) :=
  let owner := s.takeWhile isNameChar
  match s.dropWhile isNameChar with
  | '/' :: rest =>
    let repo := rest.takeWhile isNameChar
    let tail := rest.dropWhile isNameChar
    if owner = [] ∨ repo = [] then none
    else if tail = [] ∨ tail = ['\n'] then some (owner, repo)
    else none
  | _ => none

def ofText (text : String) : Except Fault RepoName :=
  let trimmed := dropTrailing '/' (trim text.toList)
  match inAddress? trimmed with
  | some (owner, repo) =>
    let repo := (dropSuffix? ".git".toList repo).getD repo
    .ok ⟨String.ofList owner, String.ofList repo⟩
  | none =>
    match shortForm? trimmed with
    | some (owner, repo) => .ok ⟨String.ofList owner, String.ofList repo⟩
    | none => .error (.invalidRepo text)

end RepoName

end CodeDeck
