import CodeDeck.Proofs.Fetch.Misfits
import CodeDeck.Proofs.Text.Base64
import CodeDeck.Proofs.Text.Utf8

/-! The text of a file as the service sends it: its bytes in base 64, broken into lines. The line ends are dropped,
the bytes are read, and the characters are put together from them; each of the three gives back what it was made of,
so that the text arrives as it is. -/

namespace CodeDeck.Fetch

open CodeDeck.Text CodeDeck.Http

/-- The reply to the call is an object that says that its content is in base 64, and the lines of it. -/
def Serves (routes : Routes) (call : Call) (lines : String) : Prop :=
  ∃ v, Carries routes call v ∧ v.textIn? "encoding" = some "base64" ∧ v.textIn? "content" = some lines

def linesOf? (reply : Except CodeDeck.Fault (Except Http.Fault Json)) : Option String :=
  match reply with
  | .ok (.ok v) => if v.textIn? "encoding" = some "base64" then v.textIn? "content" else none
  | _ => none

theorem serves_iff {routes : Routes} {call : Call} {lines : String} :
    Serves routes call lines ↔ linesOf? ((routes.reply call).read call) = some lines := by
  constructor
  · rintro ⟨v, carries, encoding, held⟩
    rw [read_eq_value_iff.2 carries]
    exact (if_pos encoding).trans held
  · intro told
    unfold linesOf? at told
    split at told
    · next v read =>
      obtain ⟨encoding, held⟩ := Option.ite_none_right_eq_some.1 told
      exact ⟨v, read_eq_value_iff.1 read, encoding, held⟩
    · contradiction

instance (routes : Routes) (call : Call) (lines : String) : Decidable (Serves routes call lines) :=
  decidable_of_iff _ serves_iff.symm

theorem tells_of_wrapped {v : Json} {lines text : String} (encoding : v.textIn? "encoding" = some "base64")
    (held : v.textIn? "content" = some lines)
    (wrapped : Base64.Wrapped (Base64.encode (Utf8.bytesOf text)) lines.toList) : Tells v text := by
  have read := Base64.decode_of_wrapped (fun _ member => Utf8.lt_of_mem_bytesOf member) wrapped
  exact ⟨encoding, lines, Utf8.bytesOf text, held, read, (Utf8.decode_bytesOf text).symm⟩

theorem perform_file_of_read {c : Client} {routes : Routes} {name : RepoName} {path : String} {call : Call}
    (located : fileCall c name (.str path) = .ok call) {content : String}
    (read : outcome ((routes.reply call).read call) = .ok (.ok content)) (j : Journal) :
    (file c routes name (.str path)).perform j =
      (.ok (.ok (.ok content)), { j with requests := j.requests ++ [call.request] }) := by
  have asked : (ask routes call).perform j =
      (.ok ((routes.reply call).read call), { j with requests := j.requests ++ [call.request] }) := rfl
  unfold file
  rw [located]
  simp only [Work.perform_bind, asked, read]
  rfl

/-- Whatever the text and wherever its base 64 is broken into lines, the file that is served so is read with exactly
this text. -/
theorem served_text_read (c : Client) (routes : Routes) (name : RepoName) (path text : String) {call : Call}
    {lines : String} (located : fileCall c name (.str path) = .ok call) (serves : Serves routes call lines)
    (wrapped : Base64.Wrapped (Base64.encode (Utf8.bytesOf text)) lines.toList) :
    read? c routes name path = some ⟨path, text⟩ ∧
    ∀ j, (file c routes name (.str path)).perform j =
      (.ok (.ok (.ok text)), { j with requests := j.requests ++ [call.request] }) := by
  obtain ⟨v, carries, encoding, held⟩ := serves
  have tells := tells_of_wrapped encoding held wrapped
  have read : outcome ((routes.reply call).read call) = .ok (.ok text) := by
    rw [read_eq_value_iff.2 carries]
    exact contentOf_eq_content_iff.2 tells
  exact ⟨read?_eq_some_iff.2 ⟨rfl, call, v, located, carries, tells⟩, perform_file_of_read located read⟩

def accentRoutes : Routes :=
  [("/repos/o/r/contents/a.py",
    .answered 200 "\x7b\"encoding\":\"base64\",\"content\":\"w6\\nk=\\n\"\x7d".toList)]

/-- The accent is read from the two lines. -/
theorem accent_read :
    ∃ call, fileCall plainClient plainName (.str "a.py") = .ok call ∧ Serves accentRoutes call "w6\nk=\n" ∧
      Base64.Wrapped (Base64.encode (Utf8.bytesOf "é")) "w6\nk=\n".toList ∧
      read? plainClient accentRoutes plainName "a.py" = some ⟨"a.py", "é"⟩ := by
  have told : (fileCall plainClient plainName (.str "a.py")).toOption.bind (fun call =>
      linesOf? ((Routes.reply accentRoutes call).read call)) = some "w6\nk=\n" := by decide +kernel
  cases located : fileCall plainClient plainName (.str "a.py") with
  | error fault =>
    rw [located] at told
    contradiction
  | ok call =>
    rw [located] at told
    have serves : Serves accentRoutes call "w6\nk=\n" := serves_iff.2 told
    have digits : Base64.encode (Utf8.bytesOf "é") = "w6\nk=\n".toList.filter (· != '\n') := by
      rw [← Utf8.encode_toList]
      decide
    have wrapped : Base64.Wrapped (Base64.encode (Utf8.bytesOf "é")) "w6\nk=\n".toList := by
      rw [digits]
      exact Base64.wrapped_filter _
    exact ⟨call, rfl, serves, wrapped,
      (served_text_read plainClient accentRoutes plainName "a.py" "é" located serves wrapped).1⟩

end CodeDeck.Fetch
