import CodeDeck.Extract.Curly
import CodeDeck.Proofs.Pattern
import CodeDeck.Proofs.Text.Word

/-! Where the head of an exported declaration can start: at the word `export`, with blanks and a keyword of the
declaration behind it. All other places are passed over by the search. -/

namespace CodeDeck.Extract.Curly

open CodeDeck.Text CodeDeck.Pattern

def Exports (keywords : List String) (s : List Char) : Prop :=
  ∃ behind, s = "export".toList ++ behind ∧ behind.head?.any isBlank = true ∧
    ∃ w ∈ keywords, w.toList <+: trimStart behind

theorem exports_iff {keywords : List String} {s : List Char} :
    Exports keywords s ↔ "export".toList <+: s ∧ (s.drop 6).head?.any isBlank = true ∧
      ∃ w ∈ keywords, w.toList <+: trimStart (s.drop 6) := by
  constructor
  · rintro ⟨behind, rfl, blank, listed⟩
    exact ⟨List.prefix_append .., blank, listed⟩
  · rintro ⟨⟨behind, rfl⟩, blank, listed⟩
    exact ⟨behind, rfl, blank, listed⟩

instance (keywords : List String) (s : List Char) : Decidable (Exports keywords s) :=
  decidable_of_iff _ exports_iff.symm

/-- None of the keywords starts like the word, as far as both of them go. -/
def Unlike (keywords : List String) (word : List Char) : Prop :=
  ∀ w ∈ keywords, ¬ w.toList <+: word ∧ ¬ word <+: w.toList

instance (keywords : List String) (word : List Char) : Decidable (Unlike keywords word) :=
  inferInstanceAs (Decidable (∀ w ∈ keywords, ¬ w.toList <+: word ∧ ¬ word <+: w.toList))

theorem exports_of_starts {keywords : List String} {more : Pattern} {s : List Char}
    (exported : (Pattern.both (word "export") (.both blanks1 more)).Starts s)
    (opens : ∀ t, more.Starts t → ∃ w ∈ keywords, w.toList <+: t)
    (inked : ∀ w ∈ keywords, w.toList.head?.any (fun c => !isBlank c) = true) : Exports keywords s := by
  obtain ⟨_, _, rfl, takes, spaced⟩ := exported.both
  obtain rfl := show _ = "export".toList from takes
  obtain ⟨gap, _, rfl, ⟨some, blank⟩, starts⟩ := spaced.both
  obtain ⟨w, member, rest, rfl⟩ := opens _ starts
  refine ⟨gap ++ (w.toList ++ rest), rfl, ?_, w, member, ?_⟩
  · obtain ⟨c, others, rfl⟩ := List.exists_cons_of_length_pos some
    exact blank c List.mem_cons_self
  · rw [trimStart_gap blank (inked w member)]
    exact List.prefix_append ..

theorem functionHead_exports {s : List Char} (starts : functionHead.Starts s) :
    Exports ["default", "async", "function"] s := by
  apply exports_of_starts starts
  · intro t starts
    rcases starts.optional with standard | starts
    · exact ⟨"default", by decide, standard.opening⟩
    rcases starts.optional with waiting | starts
    · exact ⟨"async", by decide, waiting.opening⟩
    · exact ⟨"function", by decide, starts.opening⟩
  · decide

theorem arrowHead_exports {s : List Char} (starts : arrowHead.Starts s) : Exports ["const"] s := by
  apply exports_of_starts starts
  · intro t starts
    exact ⟨"const", by decide, starts.opening⟩
  · decide

theorem typeHead_exports {s : List Char} (starts : typeHead.Starts s) :
    Exports ["declare", "type", "interface"] s := by
  apply exports_of_starts starts
  · intro t starts
    rcases starts.optional with ambient | starts
    · exact ⟨"declare", by decide, ambient.opening⟩
    obtain ⟨w, rest, rfl, takes | takes, _⟩ := starts.both
    · exact ⟨"type", by decide, takes ▸ List.prefix_append ..⟩
    · exact ⟨"interface", by decide, takes ▸ List.prefix_append ..⟩
  · decide

theorem classHead_exports {s : List Char} (starts : classHead.Starts s) :
    Exports ["default", "abstract", "class"] s := by
  apply exports_of_starts starts
  · intro t starts
    rcases starts.optional with standard | starts
    · exact ⟨"default", by decide, standard.opening⟩
    rcases starts.optional with partial_ | starts
    · exact ⟨"abstract", by decide, partial_.opening⟩
    · exact ⟨"class", by decide, starts.opening⟩
  · decide

/-! Places at which no declaration starts. -/

theorem not_prefix_of_sign {w : List Char} {c : Char} (lettered : w.head?.any isLetter = true)
    (sign : isLetter c = false) (more : List Char) : ¬ w <+: c :: more := by
  intro start
  cases w with
  | nil => contradiction
  | cons d letters =>
    have same : d = c := (List.cons_prefix_cons.1 start).1
    have letter : isLetter d = true := lettered
    rw [same, sign] at letter
    contradiction

section Quiet

variable {p : Pattern} {keywords : List String} (exports : ∀ {s}, p.Starts s → Exports keywords s)
include exports

theorem quiet_of_not_export {s : List Char} {c : Char} (absent : ¬ "export".toList <:+: s)
    (apart : c ∉ "export".toList) (rest : List Char) : p.Quiet (s ++ [c]) rest := by
  intro later suffix nonempty starts
  obtain ⟨behind, same, _⟩ := exports starts
  rcases List.suffix_concat_iff.1 suffix with empty | ⟨t, rfl, inner⟩
  · exact nonempty empty
  · have start : "export".toList <+: t ++ c :: rest := by
      rw [List.append_assoc] at same
      exact ⟨behind, same.symm⟩
    rcases prefix_or_mem start with within | inside
    · exact absent (within.isInfix.trans inner.isInfix)
    · exact apart inside

theorem quiet_keyword {keyword : List Char} (other : Unlike keywords keyword)
    (absent : ¬ "export".toList <:+: "xport ".toList ++ keyword)
    (inked : keyword.head?.any (fun c => !isBlank c) = true) (rest : List Char) :
    p.Quiet ("export ".toList ++ (keyword ++ [' '])) rest := by
  have later := quiet_of_not_export exports (c := ' ') absent (by decide) rest
  show p.Quiet ('e' :: ("xport ".toList ++ (keyword ++ [' ']))) rest
  apply quiet_cons
  · intro starts
    obtain ⟨behind, same, _, w, member, start⟩ := exports starts
    have here : behind = [' '] ++ (keyword ++ ' ' :: rest) := by
      simpa using same.symm
    have reached : trimStart behind = keyword ++ ' ' :: rest := by
      rw [here]
      exact trimStart_gap (List.forall_mem_singleton.2 (by decide)) inked _
    rw [reached] at start
    rcases List.prefix_or_prefix_of_prefix start (List.prefix_append ..) with short | long
    · exact (other w member).1 short
    · exact (other w member).2 long
  · rw [← List.append_assoc]
    exact later

theorem quiet_name {name rest : List Char} (word : ∀ c ∈ name, isWord c = true)
    (stops : ∀ c, rest.head? = some c → c ∉ "export".toList)
    (closed : ∀ w ∈ keywords, ¬ w.toList <+: trimStart rest) : p.Quiet name rest := by
  intro later suffix nonempty starts
  obtain ⟨behind, same, blank, w, member, start⟩ := exports starts
  rcases List.append_eq_append_iff.1 same with ⟨a, whole, inner⟩ | ⟨a, whole, inner⟩
  · cases a with
    | nil =>
      rw [List.nil_append] at inner
      exact closed w member (inner ▸ start)
    | cons c others => exact stops c (by rw [inner]; rfl) (by rw [whole]; simp)
  · cases a with
    | nil =>
      rw [List.nil_append] at inner
      exact closed w member (inner ▸ start)
    | cons c others =>
      have letter : isWord c = true := word c (suffix.subset (by rw [whole]; simp))
      have gap : isBlank c = true := by simpa [inner] using blank
      rw [isBlank_of_isWord letter] at gap
      contradiction

end Quiet

end CodeDeck.Extract.Curly
