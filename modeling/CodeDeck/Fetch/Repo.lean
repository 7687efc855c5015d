import CodeDeck.Fetch.Journal
import CodeDeck.Json.Key
import CodeDeck.Json.Read
import CodeDeck.RepoName

/-!
The metadata and the file tree of a repository. Fields are kept as the service sends them.
-/

namespace CodeDeck

structure RepoMeta where
  name : Json
  fullName : Json
  description : Json
  stars : Json
  language : Json
  defaultBranch : Json

namespace RepoMeta

def toJson (m : RepoMeta) : Json :=
  .obj [("name", m.name), ("full_name", m.fullName), ("description", m.description),
    ("stars", m.stars), ("language", m.language), ("default_branch", m.defaultBranch)]

/-- Only the two names are required. -/
def ofJson (v : Json) : Except Fault RepoMeta := do
  return {
    name := ← v.require "name"
    fullName := ← v.require "full_name"
    description := ← v.askOr "description" .null
    stars := ← v.askOr "stargazers_count" (.int 0)
    language := ← v.askOr "language" .null
    defaultBranch := ← v.askOr "default_branch" (.str "main") }

end RepoMeta

structure TreeEntry where
  path : Json
  isBlob : Bool
  size : Json

namespace TreeEntry

def toJson (e : TreeEntry) : Json :=
  .obj [("path", e.path), ("is_blob", .bool e.isBlob), ("size", e.size)]

def isBlobJson (v : Json) : Except Fault Bool :=
  (v.askOr "type" .null).map fun type => type.same (.str "blob")

def readItems : List Json → Except Fault (List TreeEntry)
  | [] => .ok []
  | v :: rest => do
    if ← isBlobJson v then
      let path ← v.require "path"
      let size ← v.askOr "size" .null
      let others ← readItems rest
      return ⟨path, true, size⟩ :: others
    else readItems rest

/-- The items of a tree. What is no list cannot be read, but for empty texts and objects. -/
def items : Json → Except Fault (List Json)
  | .arr items => .ok items
  | .str "" => .ok []
  | .obj [] => .ok []
  | .str _ => .error (.noMember .str "get")
  | .obj _ => .error (.noMember .str "get")
  | _ => .error .wrongType

def ofJson (v : Json) : Except Fault (List TreeEntry) :=
  ((v.askOr "tree" (.arr [])).bind items).bind readItems

end TreeEntry

namespace Fetch

open CodeDeck.Http

def repoReference (name : RepoName) : List Char := "/repos/".toList ++ name.fullName.toList

def treeReference (name : RepoName) (branch : String) : List Char :=
  repoReference name ++ "/git/trees/".toList ++ branch.toList

def treeQuery : List Char := "recursive=1".toList

/-- Sends the request of a call and reads the reply. -/
def ask (routes : Routes) (call : Call) : Work (Except CodeDeck.Fault (Except Http.Fault Json)) := do
  Work.sent call.request
  return (routes.reply call).read call

def repo (c : Client) (routes : Routes) (name : RepoName) : Work RepoMeta := do
  let call ← Work.ofExcept (c.call (repoReference name) none)
  match ← Work.ofExcept (← ask routes call) with
  | .error cause => throw (.repoNotFound name.owner name.repo cause)
  | .ok v => Work.ofExcept (RepoMeta.ofJson v)

def tree (c : Client) (routes : Routes) (name : RepoName) (branch : String) :
    Work (List TreeEntry) := do
  let call ← Work.ofExcept (c.call (treeReference name branch) (some treeQuery))
  match ← Work.ofExcept (← ask routes call) with
  | .error cause => throw (.treeNotFound name.owner name.repo branch cause)
  | .ok v => Work.ofExcept (TreeEntry.ofJson v)

end Fetch

end CodeDeck
