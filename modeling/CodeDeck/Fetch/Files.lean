import CodeDeck.Fetch.Selection
import CodeDeck.Text.Base64
import CodeDeck.Text.Percent
import CodeDeck.Text.Utf8

/-!
The contents of files, read in batches. A file that cannot be read is left out with a warning; only a
reply of the wrong shape ends the reading, after its batch.
-/

namespace CodeDeck.Fetch

open CodeDeck.Text CodeDeck.Http

inductive Skip where
  | reply (cause : Http.Fault)
  /-- The content is not in base 64; this is no reason for a warning. -/
  | otherEncoding
  | missingContent
  | content (problem : Base64.Problem)
  deriving DecidableEq, Repr

def Skip.warning? : Skip → Option String
  | reply cause => some cause.message
  | otherEncoding => none
  | missingContent => some (quotedString "content")
  | content problem => some problem.message

def contentOf (v : Json) : Except Fault (Except Skip String) := do
  let encoding ← v.askOr "encoding" .null
  if !encoding.same (.str "base64") then return .error .otherEncoding
  else
    match v.field? "content" with
    | none => return .error .missingContent
    | some (.str text) =>
      match Base64.decode (text.toList.filter (· != '\n')) with
      | .error problem => return .error (.content problem)
      | .ok bytes => return .ok (String.ofList (Utf8.decode bytes))
    | some other => throw (.noMember other.kind "replace")

def fileReference (name : RepoName) (path : String) : List Char :=
  repoReference name ++ "/contents/".toList ++ Percent.encodePath path.toList

def fileCall (c : Client) (name : RepoName) (path : Json) : Except CodeDeck.Fault Call :=
  path.asText.bind fun path => c.call (fileReference name path) none

/-- What became of one file: its text, the reason to leave it out, or a fault. -/
abbrev Outcome := Except Fault (Except Skip String)

def outcome (reply : Except CodeDeck.Fault (Except Http.Fault Json)) : Outcome :=
  match reply with
  | .error fault => .error fault
  | .ok (.error cause) => .ok (.error (.reply cause))
  | .ok (.ok v) => contentOf v

def warnOf (path : Json) (o : Outcome) : Work Unit :=
  match o with
  | .ok (.error skip) =>
    match skip.warning? with
    | some reason => Work.warn ("[fetch] Skipping " ++ path.display ++ ": " ++ reason)
    | none => pure ()
  | _ => pure ()

def file (c : Client) (routes : Routes) (name : RepoName) (path : Json) : Work Outcome := do
  match fileCall c name path with
  | .error fault => return .error fault
  | .ok call =>
    let o := outcome (← ask routes call)
    warnOf path o
    return o

def batch (c : Client) (routes : Routes) (name : RepoName) : List Json → Work (List Outcome)
  | [] => pure []
  | path :: rest => do
    let first ← file c routes name path
    let others ← batch c routes name rest
    return first :: others

def settled : List (Json × Outcome) → Except Fault (List SourceFile)
  | [] => .ok []
  | (_, .error e) :: _ => .error e
  | (path, .ok o) :: rest =>
    match settled rest, o with
    | .error e, _ => .error e
    | .ok files, .ok content => .ok (⟨path.display, content⟩ :: files)
    | .ok files, .error _ => .ok files

def batches (size : Nat) (paths : List Json) : List (List Json) :=
  (List.range ((paths.length + (size - 1)) / size)).map fun i => (paths.drop (i * size)).take size

def runBatches (c : Client) (routes : Routes) (name : RepoName) :
    List (List Json) → Work (List SourceFile)
  | [] => pure []
  | paths :: rest => do
    let outcomes ← batch c routes name paths
    let files ← Work.ofExcept (settled (paths.zip outcomes))
    let others ← runBatches c routes name rest
    return files ++ others

/-- Batches of a negative size hold nothing. -/
def batchesOf (size : Int) (paths : List Json) : Except Fault (List (List Json)) :=
  if size = 0 then .error .zeroStep
  else if size < 0 then .ok []
  else .ok (batches size.toNat paths)

/-- Reads at most `maxFiles` of the files, `batchSize` at a time, in the order of the paths. -/
def files (c : Client) (routes : Routes) (name : RepoName) (paths : List Json)
    (maxFiles batchSize : Json) : Work (List SourceFile) := do
  let selected := Generate.upTo (← Work.ofExcept maxFiles.asBound) paths
  let size ← Work.ofExcept batchSize.asWhole
  let bs ← Work.ofExcept (batchesOf size selected)
  let found ← runBatches c routes name bs
  Work.info
    ("[fetch] " ++ toString found.length ++ "/" ++ toString selected.length ++ " files fetched")
  return found

end CodeDeck.Fetch
