import CodeDeck.Http.Endpoint
import CodeDeck.Proofs.Fetch.Batches

/-! Which files are left out and which end the reading. A status of no success, a body that is no JSON and an
object without a text in base 64 cost one file only. A value of another shape, values nested too deep and a path
that the client refuses cost all files: the first of them is the result, and later batches are not asked for. -/

namespace CodeDeck.Fetch

open CodeDeck.Text CodeDeck.Http

/-- The value tells the content of a file: it is an object that holds it in base 64. -/
structure Tells (v : Json) (content : String) : Prop where
  encoding : v.textIn? "encoding" = some "base64"
  decodes : ∃ text bytes, v.textIn? "content" = some text ∧
    Base64.decode (text.toList.filter (· != '\n')) = .ok bytes ∧ content = String.ofList (Utf8.decode bytes)

inductive Misfit : Json → CodeDeck.Fault → Prop
  | noObject {v : Json} (shape : v.isObject = false) : Misfit v (.noMember v.kind "get")
  | noText {v content : Json} (encoding : v.textIn? "encoding" = some "base64")
      (held : v.field? "content" = some content) (shape : content.text? = none) :
      Misfit v (.noMember content.kind "replace")

section Contents

variable {v : Json}

theorem contentOf_of_not_isObject (shape : v.isObject = false) :
    contentOf v = .error (.noMember v.kind "get") := by
  cases v with
  | obj fields => simp [Json.isObject] at shape
  | _ => rfl

theorem contentOf_of_isObject (object : v.isObject = true) :
    contentOf v =
      if v.textIn? "encoding" = some "base64" then
        match v.field? "content" with
        | none => .ok (.error .missingContent)
        | some content =>
          match content.text? with
          | none => .error (.noMember content.kind "replace")
          | some text =>
            match Base64.decode (text.toList.filter (· != '\n')) with
            | .error problem => .ok (.error (.content problem))
            | .ok bytes => .ok (.ok (String.ofList (Utf8.decode bytes)))
      else .ok (.error .otherEncoding) := by
  have asked := Json.askOr_of_isObject object "encoding" .null
  simp only [contentOf, asked, bind, Except.bind, ← Json.same_field_iff]
  cases encoded : ((v.field? "encoding").getD .null).same (.str "base64") with
  | false => rfl
  | true =>
    cases held : v.field? "content" with
    | none => rfl
    | some content =>
      cases content with
      | str text => cases Base64.decode (text.toList.filter (· != '\n')) <;> rfl
      | _ => rfl

theorem isObject_of_textIn? {name s : String} (told : v.textIn? name = some s) : v.isObject = true :=
  Json.isObject_of_field? (Json.field?_of_textIn? told)

theorem contentOf_eq_content_iff {content : String} : contentOf v = .ok (.ok content) ↔ Tells v content := by
  constructor
  · intro read
    cases object : v.isObject with
    | false =>
      rw [contentOf_of_not_isObject object] at read
      contradiction
    | true =>
      rw [contentOf_of_isObject object] at read
      split at read
      · next encoding =>
        cases held : v.field? "content" with
        | none => simp [held] at read
        | some value =>
          cases told : value.text? with
          | none => simp [held, told] at read
          | some text =>
            cases decoded : Base64.decode (text.toList.filter (· != '\n')) with
            | error problem => simp [held, told, decoded] at read
            | ok bytes =>
              have same : String.ofList (Utf8.decode bytes) = content := by
                simpa [held, told, decoded] using read
              refine ⟨encoding, text, bytes, ?_, decoded, same.symm⟩
              rw [Json.textIn?, held, Option.bind_some, told]
      · simp at read
  · rintro ⟨encoding, text, bytes, told, decoded, rfl⟩
    rw [contentOf_of_isObject (isObject_of_textIn? encoding), if_pos encoding, Json.field?_of_textIn? told]
    simp only [Json.text?, decoded]

/-- The reading ends at a reply exactly when its shape is not expected. -/
theorem contentOf_eq_fault_iff {fault : CodeDeck.Fault} : contentOf v = .error fault ↔ Misfit v fault := by
  constructor
  · intro failed
    cases object : v.isObject with
    | false =>
      rw [contentOf_of_not_isObject object] at failed
      exact Except.error.inj failed ▸ .noObject object
    | true =>
      rw [contentOf_of_isObject object] at failed
      split at failed
      · next encoding =>
        cases held : v.field? "content" with
        | none => simp [held] at failed
        | some value =>
          cases told : value.text? with
          | none =>
            have same : CodeDeck.Fault.noMember value.kind "replace" = fault := by
              simpa [held, told] using failed
            exact same ▸ .noText encoding held told
          | some text =>
            cases decoded : Base64.decode (text.toList.filter (· != '\n')) <;>
              simp [held, told, decoded] at failed
      · simp at failed
  · intro misfit
    cases misfit with
    | noObject shape => exact contentOf_of_not_isObject shape
    | noText encoding held shape =>
      rw [contentOf_of_isObject (isObject_of_textIn? encoding), if_pos encoding, held]
      simp only [shape]

end Contents

section Replies

variable (routes : Routes) (call : Call)

def Succeeds (text : List Char) : Prop :=
  ∃ status body, routes.reply call = .answered status body ∧ call.typed = true ∧
    (200 ≤ status ∧ status < 300) ∧ Json.bodyText body = .ok text

def Carries (v : Json) : Prop := ∃ text, Succeeds routes call text ∧ Json.parse text = .ok v

variable {routes call}

theorem read_of_succeeds {text : List Char} (succeeds : Succeeds routes call text) :
    (routes.reply call).read call =
      match Json.parse text with
      | .ok v => .ok (.ok v)
      | .error m => if m.problem.isNesting then .error (.malformed m) else .ok (.error (.malformed m)) := by
  obtain ⟨status, body, answered, typed, success, told⟩ := succeeds
  rw [answered, Reply.read, typed, if_neg (by decide), if_pos success]
  cases parsed : Json.parse text with
  | ok v => simp only [readBody, told, parsed]
  | error m => simp only [readBody, told, parsed]

theorem succeeds_or (routes : Routes) (call : Call) :
    (∃ text, Succeeds routes call text) ∨ ∃ cause, (routes.reply call).read call = .ok (.error cause) := by
  cases answered : routes.reply call with
  | lost reason => exact .inr ⟨_, rfl⟩
  | answered status body =>
    by_cases typed : call.typed = true
    · by_cases success : 200 ≤ status ∧ status < 300
      · cases told : Json.bodyText body with
        | error problem =>
          refine .inr ⟨.undecodable problem, ?_⟩
          rw [Reply.read, typed, if_neg (by decide), if_pos success]
          simp only [readBody, told]
        | ok text => exact .inl ⟨text, status, body, answered, typed, success, told⟩
      · refine .inr ⟨.status status call.request.url, ?_⟩
        rw [Reply.read, typed, if_neg (by decide), if_neg success]
    · refine .inr ⟨.untyped call.request.url, ?_⟩
      rw [Reply.read, if_pos (by simpa using typed)]

theorem read_eq_value_iff {v : Json} : (routes.reply call).read call = .ok (.ok v) ↔ Carries routes call v := by
  constructor
  · intro read
    rcases succeeds_or routes call with ⟨text, succeeds⟩ | ⟨cause, failed⟩
    · refine ⟨text, succeeds, ?_⟩
      rw [read_of_succeeds succeeds] at read
      cases parsed : Json.parse text with
      | ok other =>
        rw [parsed] at read
        exact congrArg Except.ok (Except.ok.inj (Except.ok.inj read))
      | error m =>
        rw [parsed] at read
        by_cases deep : m.problem.isNesting = true <;> simp [deep] at read
    · rw [failed] at read
      cases Except.ok.inj read
  · rintro ⟨text, succeeds, parsed⟩
    rw [read_of_succeeds succeeds, parsed]

theorem read_eq_fault_iff {fault : CodeDeck.Fault} :
    (routes.reply call).read call = .error fault ↔
      ∃ text m, Succeeds routes call text ∧ Json.parse text = .error m ∧ m.problem.isNesting = true ∧
        fault = .malformed m := by
  constructor
  · intro failed
    rcases succeeds_or routes call with ⟨text, succeeds⟩ | ⟨cause, read⟩
    · rw [read_of_succeeds succeeds] at failed
      cases parsed : Json.parse text with
      | ok v =>
        rw [parsed] at failed
        contradiction
      | error m =>
        rw [parsed] at failed
        by_cases deep : m.problem.isNesting = true
        · simp only [if_pos deep] at failed
          exact ⟨text, m, succeeds, parsed, deep, (Except.error.inj failed).symm⟩
        · simp [deep] at failed
    · rw [read] at failed
      contradiction
  · rintro ⟨text, m, succeeds, parsed, deep, rfl⟩
    rw [read_of_succeeds succeeds, parsed]
    exact if_pos deep

end Replies

section Breaking

variable (c : Client) (routes : Routes) (name : RepoName)

/-- The file at the path ends the reading with the fault. -/
inductive Breaks (path : String) : CodeDeck.Fault → Prop
  | refused {fault : CodeDeck.Fault} (refused : fileCall c name (.str path) = .error fault) : Breaks path fault
  | nesting {call : Call} {text : List Char} {m : Json.Malformed}
      (located : fileCall c name (.str path) = .ok call) (succeeds : Succeeds routes call text)
      (parsed : Json.parse text = .error m) (deep : m.problem.isNesting = true) : Breaks path (.malformed m)
  | misfit {call : Call} {v : Json} {fault : CodeDeck.Fault}
      (located : fileCall c name (.str path) = .ok call) (carries : Carries routes call v)
      (misfit : Misfit v fault) : Breaks path fault

def Reads (path : String) (file : SourceFile) : Prop :=
  file.path = path ∧ ∃ call v, fileCall c name (.str path) = .ok call ∧ Carries routes call v ∧
    Tells v file.content

variable {c routes name} {path : String}

theorem fault?_eq_some_iff {fault : CodeDeck.Fault} :
    fault? c routes name path = some fault ↔ Breaks c routes name path fault := by
  have known : fault? c routes name path = some fault ↔ fate c routes name path = .error fault := by
    rw [fault?]
    cases fate c routes name path <;> simp
  rw [known, fate]
  constructor
  · intro failed
    cases located : fileCall c name (.str path) with
    | error refusal =>
      rw [located] at failed
      exact Except.error.inj failed ▸ .refused located
    | ok call =>
      simp only [located] at failed
      cases read : (routes.reply call).read call with
      | error other =>
        rw [read] at failed
        obtain ⟨text, m, succeeds, parsed, deep, rfl⟩ := read_eq_fault_iff.1 read
        exact Except.error.inj failed ▸ .nesting located succeeds parsed deep
      | ok result =>
        rw [read] at failed
        cases result with
        | error cause => simp [outcome] at failed
        | ok v => exact .misfit located (read_eq_value_iff.1 read) (contentOf_eq_fault_iff.1 failed)
  · intro breaks
    cases breaks with
    | refused refused => rw [refused]
    | nesting located succeeds parsed deep =>
      simp only [located, read_eq_fault_iff.2 ⟨_, _, succeeds, parsed, deep, rfl⟩, outcome]
    | misfit located carries misfit =>
      simp only [located, read_eq_value_iff.2 carries, outcome]
      exact contentOf_eq_fault_iff.2 misfit

theorem fault?_eq_none_iff :
    fault? c routes name path = none ↔ ∀ fault, ¬ Breaks c routes name path fault := by
  rw [Option.eq_none_iff_forall_ne_some]
  exact forall_congr' fun fault => not_congr fault?_eq_some_iff

theorem read?_eq_some_iff {file : SourceFile} :
    read? c routes name path = some file ↔ Reads c routes name path file := by
  constructor
  · intro read
    unfold read? fate at read
    cases located : fileCall c name (.str path) with
    | error refusal => simp [located] at read
    | ok call =>
      simp only [located] at read
      split at read
      · next content came =>
        obtain rfl := Option.some.inj read
        cases replied : (routes.reply call).read call with
        | error fault => simp [replied, outcome] at came
        | ok result =>
          rw [replied] at came
          cases result with
          | error cause => simp [outcome] at came
          | ok v =>
            exact ⟨rfl, call, v, located, read_eq_value_iff.1 replied, contentOf_eq_content_iff.1 came⟩
      · contradiction
  · rintro ⟨rfl, call, v, located, carries, tells⟩
    have came : fate c routes name file.path = .ok (.ok file.content) := by
      simp only [fate, located, read_eq_value_iff.2 carries, outcome]
      exact contentOf_eq_content_iff.2 tells
    simp only [read?, came]

end Breaking

theorem harmless_of_reading {c : Client} {routes : Routes} {name : RepoName} {paths : List String}
    {files : List SourceFile} (found : reading c routes name paths = .ok files) :
    ∀ path ∈ paths, fault? c routes name path = none := by
  unfold reading at found
  split at found
  · contradiction
  · next none => exact List.findSome?_eq_none_iff.1 none

theorem exists_request {c : Client} {routes : Routes} {name : RepoName} {path : String}
    (harmless : fault? c routes name path = none) : ∃ r, request? c name path = some r := by
  cases located : fileCall c name (.str path) with
  | ok call => exact ⟨call.request, congrArg (fun made => made.toOption.map Call.request) located⟩
  | error refusal =>
    have stops : fault? c routes name path = some refusal := fault?_eq_some_iff.2 (.refused located)
    rw [harmless] at stops
    contradiction

/-- A file that cannot be read costs that file only, as long as none of the selected files breaks the reading: all of
them are asked for, and the files told by their replies are found, in the order of the paths. The first file that
breaks it ends it with its fault, behind the batch that it stands in. -/
theorem files_spared_iff (c : Client) (routes : Routes) (name : RepoName) (paths : List String)
    {maxFiles batchSize : Json} {most size : Nat} (bound : maxFiles.whole? = some (most : Int))
    (sized : batchSize.whole? = some (size : Int)) (positive : 0 < size) :
    let selected := paths.take most
    let work := files c routes name (paths.map .str) maxFiles batchSize
    ((∃ requests, requests.map some = selected.map (request? c name) ∧
        Work.Does work requests (.ok (selected.filterMap (read? c routes name)))) ↔
      ∀ path ∈ selected, ∀ fault, ¬ Breaks c routes name path fault) ∧
    (∀ front path back fault, selected = front ++ path :: back →
      (∀ other ∈ front, ∀ fault, ¬ Breaks c routes name other fault) → Breaks c routes name path fault →
      Work.Does work ((selected.take ((front.length / size + 1) * size)).filterMap (request? c name))
        (.error fault)) ∧
    ∀ path file, read? c routes name path = some file ↔ Reads c routes name path file := by
  intro selected work
  refine ⟨⟨?_, ?_⟩, ?_, fun path file => read?_eq_some_iff⟩
  · rintro ⟨requests, _, does⟩
    have whole := does_slices c routes name paths bound sized positive
    have found := (does.unique whole).1
    intro path member
    apply fault?_eq_none_iff.1
    exact harmless_of_reading found.symm path member
  · intro spared
    have harmless (path : String) (member : path ∈ selected) : fault? c routes name path = none :=
      fault?_eq_none_iff.2 (spared path member)
    refine ⟨selected.filterMap (request? c name), ?_, does_files_of_harmless bound sized positive harmless⟩
    have asked (path : String) (member : path ∈ selected) :
        (request? c name path).map some = some (request? c name path) := by
      obtain ⟨r, sent⟩ := exists_request (harmless path member)
      rw [sent, Option.map_some]
    rw [List.map_filterMap, List.filterMap_congr asked, List.filterMap_eq_map']
  · intro front path back fault split spared breaks
    have harmless (other : String) (member : other ∈ front) : fault? c routes name other = none :=
      fault?_eq_none_iff.2 (spared other member)
    exact does_files_of_fault bound sized positive split harmless (fault?_eq_some_iff.2 breaks)

def plainEndpoint : Endpoint where
  base :=
    { scheme := "https".toList, userinfo := [], host := "api.github.com".toList, port := none
      path := [], query := none, fragment := none }
  token := none

def plainClient : Client := plainEndpoint.client

def plainName : RepoName := ⟨"o", "r"⟩

def routesWith (body : String) : Routes :=
  [("/repos/o/r/contents/a.py", .answered 200 body.toList),
    ("/repos/o/r/contents/b.py",
      .answered 200 "\x7b\"encoding\":\"base64\",\"content\":\"aGk=\"\x7d".toList)]

/-- A body that is no JSON costs its file only, and so does a file that is not there. -/
theorem bad_body_spared :
    (Json.int 40).whole? = some ((40 : Nat) : Int) ∧ (Json.int 2).whole? = some ((2 : Nat) : Int) ∧ 0 < 2 ∧
    ∃ requests : List Request, requests.length = 3 ∧
      Work.Does (files plainClient (routesWith "no") plainName (["a.py", "b.py", "c.py"].map .str) (.int 40) (.int 2))
        requests (.ok [⟨"b.py", "hi"⟩]) := by
  have bound : (Json.int 40).whole? = some ((40 : Nat) : Int) := rfl
  have sized : (Json.int 2).whole? = some ((2 : Nat) : Int) := rfl
  have harmless : ∀ path ∈ ["a.py", "b.py", "c.py"],
      fault? plainClient (routesWith "no") plainName path = none := by
    decide +kernel
  have found : ["a.py", "b.py", "c.py"].filterMap (read? plainClient (routesWith "no") plainName) =
      [⟨"b.py", "hi"⟩] := by
    decide +kernel
  have spared := (files_spared_iff plainClient (routesWith "no") plainName ["a.py", "b.py", "c.py"] bound
    sized (by decide)).1.2 fun path member => fault?_eq_none_iff.1 (harmless path member)
  obtain ⟨requests, sent, does⟩ := spared
  refine ⟨bound, sized, by decide, requests, ?_, found ▸ does⟩
  simpa using congrArg List.length sent

/-- A list, with which the service replies for a directory, takes the readable file behind it along. -/
theorem list_ends_reading :
    (∃ call, fileCall plainClient plainName (.str "a.py") = .ok call ∧ Carries (routesWith "[]") call (.arr [])) ∧
    ["a.py", "b.py"].filterMap (read? plainClient (routesWith "[]") plainName) = [⟨"b.py", "hi"⟩] ∧
    ¬ ∃ requests : List Request,
        requests.map some = ["a.py", "b.py"].map (request? plainClient plainName) ∧
        Work.Does (files plainClient (routesWith "[]") plainName (["a.py", "b.py"].map .str) (.int 40) (.int 1))
          requests (.ok [⟨"b.py", "hi"⟩]) := by
  have located : ∃ call, fileCall plainClient plainName (.str "a.py") = .ok call ∧
      (Routes.reply (routesWith "[]") call).read call = .ok (.ok (.arr [])) := ⟨_, rfl, rfl⟩
  obtain ⟨call, taken, read⟩ := located
  have carries := read_eq_value_iff.1 read
  refine ⟨⟨call, taken, carries⟩, by decide +kernel, ?_⟩
  rintro ⟨requests, _, does⟩
  have stops := fault?_eq_some_iff.2 (.misfit taken carries (.noObject rfl))
  have bound : (Json.int 40).whole? = some ((40 : Nat) : Int) := rfl
  have sized : (Json.int 1).whole? = some ((1 : Nat) : Int) := rfl
  have split : ["a.py", "b.py"].take 40 = [] ++ "a.py" :: ["b.py"] := rfl
  have ends := does_files_of_fault bound sized Nat.one_pos split nofun stops
  cases (does.unique ends).1

end CodeDeck.Fetch
