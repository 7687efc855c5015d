import CodeDeck.Proofs.Fetch.Misfits

/-! Reading the files of a repository. While the client asks for each of them, and the service fails in one of its ways
or replies as it is meant to, no file ends the reading. -/

namespace CodeDeck.Fetch

open CodeDeck.Text CodeDeck.Http

/-- Is it a reply about a file as it is meant to be: an object that holds a text, if it says that this is
in base 64? -/
def isContents (v : Json) : Bool :=
  v.isObject && (v.textIn? "encoding" != some "base64" || (v.textIn? "content").isSome)

/-- Does the client ask for the file, and the service fail in one of its ways, or reply as it is meant to? -/
def isReadable (c : Client) (routes : Routes) (name : RepoName) (path : String) : Bool :=
  match fileCall c name (.str path) with
  | .error _ => false
  | .ok call =>
    match (routes.reply call).read call with
    | .ok (.ok v) => isContents v
    | .ok (.error _) => true
    | .error _ => false

theorem contentOf_ok {v : Json} (contents : isContents v = true) : ∃ content, contentOf v = .ok content := by
  rw [isContents, Bool.and_eq_true] at contents
  obtain ⟨object, given⟩ := contents
  cases came : contentOf v with
  | ok content => exact ⟨content, rfl⟩
  | error fault =>
    cases contentOf_eq_fault_iff.1 came with
    | noObject shape =>
      rw [shape] at object
      contradiction
    | noText encoding held shape =>
      rw [encoding, bne_self_eq_false, Bool.false_or, Json.textIn?, held, Option.bind_some, shape] at given
      contradiction

variable {c : Client} {routes : Routes} {name : RepoName}

theorem fault?_of_readable {path : String} (readable : isReadable c routes name path = true) :
    fault? c routes name path = none := by
  have came : ∃ content, fate c routes name path = .ok content := by
    rw [isReadable] at readable
    rw [fate]
    cases taken : fileCall c name (.str path) with
    | error fault => simp only [taken, Bool.false_eq_true] at readable
    | ok call =>
      simp only [taken] at readable ⊢
      cases read : (routes.reply call).read call with
      | error fault => simp only [read, Bool.false_eq_true] at readable
      | ok answer =>
        cases answer with
        | error cause => exact ⟨_, rfl⟩
        | ok v =>
          simp only [read] at readable
          exact contentOf_ok readable
  obtain ⟨content, came⟩ := came
  rw [fault?, came]

theorem does_files (paths : List String) {maxFiles batchSize : Json} {most size : Nat}
    (bound : maxFiles.whole? = some (most : Int)) (sized : batchSize.whole? = some (size : Int)) (positive : 0 < size)
    (readable : ∀ path ∈ paths.take most, isReadable c routes name path = true) :
    ∃ requests, requests.map some = (paths.take most).map (request? c name) ∧
      Work.Does (files c routes name (paths.map .str) maxFiles batchSize) requests
        (.ok ((paths.take most).filterMap (read? c routes name))) :=
  (files_spared_iff c routes name paths bound sized positive).1.2 fun path member =>
    fault?_eq_none_iff.1 (fault?_of_readable (readable path member))

end CodeDeck.Fetch
