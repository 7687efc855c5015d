import CodeDeck.Proofs.Fetch.Requests
import CodeDeck.Proofs.RepoName.Reading
import CodeDeck.Proofs.Text.Word

/-! The ways to write a name down. Whether by its two parts or by an address, with blanks around it and slashes at its
end, each of them is read as the name. -/

namespace CodeDeck

open CodeDeck.Text

theorem isBlank_of_isPlainChar {c : Char} (plain : isPlainChar c = true) : isBlank c = false := by
  rw [isPlainChar, Bool.or_eq_true, decide_eq_true_eq] at plain
  rcases plain with letter | sign
  · apply isBlank_of_isWord
    rw [isWord, if_pos (lt_of_isAlphanum letter), letter, Bool.true_or]
  · have signs : ['-', '_', '.'].all (fun c => !isBlank c) = true := by decide
    simpa using List.all_eq_true.1 signs c sign

namespace RepoName

theorem isNameChar_of_isPlainChar {c : Char} (plain : isPlainChar c = true) : isNameChar c = true := by
  have slash : isPlainChar '/' = false := by decide
  rw [isNameChar, isBlank_of_isPlainChar plain, Bool.not_false, Bool.and_true, bne_iff_ne]
  rintro rfl
  rw [slash] at plain
  contradiction

def schemes : List (List Char) := [[], "http://".toList, "https://".toList]

inductive IsForm (name : RepoName) : List Char → Prop
  | short : IsForm name name.fullName.toList
  /-- An address, perhaps with more behind a slash. -/
  | address {scheme ending more : List Char} (known : scheme ∈ schemes)
      (ended : ending = [] ∨ ending = ".git".toList) (behind : ∀ c, more.head? = some c → c = '/') :
      IsForm name (scheme ++ (host ++ (name.fullName.toList ++ (ending ++ more))))

theorem clear_of_mem_schemes :
    ∀ scheme ∈ schemes, 'g' ∉ scheme ∧ (scheme ++ host).head?.any isBlank = false := by
  decide +kernel

theorem isNameChar_of_mem_git : ∀ c ∈ ".git".toList, isNameChar c = true := by decide

section Forms

variable {name : RepoName} {before form after part : List Char}

theorem isAddress_trimmed {scheme owner more : List Char} (known : scheme ∈ schemes) (some : owner ≠ [])
    (chars : ∀ c ∈ owner, isNameChar c = true) (some' : part ≠ []) (chars' : ∀ c ∈ part, isNameChar c = true)
    (behind : ∀ c, more.head? = .some c → c = '/') (blank : ∀ c ∈ before, isBlank c = true)
    (blank' : ∀ c ∈ after, isBlank c = true) :
    IsAddress (trimmed (String.ofList (before ++ (scheme ++ (host ++ (owner ++ '/' :: (part ++ more))) ++ after)))) owner
      part := by
  obtain ⟨free, inked⟩ := clear_of_mem_schemes scheme known
  have whole : scheme ++ (host ++ (owner ++ '/' :: (part ++ more))) ++ after =
      (scheme ++ host ++ (owner ++ ['/']) ++ part) ++ (more ++ after) := by
    simp
  rw [whole, trimmed_eq blank blank' (by simp) ?_ (inked_of_nameChars some' chars' _)]
  · have kept : dropTrailing '/' (trimEnd more) <+: more := (List.rdropWhile_prefix _ _).trans (trimEnd_isPrefix more)
    have next (c : Char) (first : (dropTrailing '/' (trimEnd more)).head? = .some c) : c = '/' := by
      obtain ⟨dropped, whole⟩ := kept
      apply behind
      rw [← whole, List.head?_append, first]
      rfl
    have parts : StartsWith (owner ++ '/' :: (part ++ dropTrailing '/' (trimEnd more))) owner part :=
      ⟨⟨_, rfl, next⟩, some, some', slash_notMem chars, slash_notMem chars'⟩
    simpa using isAddress_append free parts
  · intro c first
    have long : scheme ++ host ≠ [] := by
      intro none
      exact absurd (List.append_eq_nil_iff.1 none).2 (by decide)
    rw [List.append_assoc, List.head?_append_of_ne_nil _ long] at first
    rwa [first, Option.any_some] at inked

/-- However a name is written, it is read. -/
theorem ofText_form (plain : name.IsPlain) (owner : name.owner ≠ "") (repo : name.repo ≠ "")
    (bare : ¬ ".git".toList <:+ name.repo.toList) (isForm : IsForm name form)
    (blank : ∀ c ∈ before ++ after, isBlank c = true) (slashes : Nat) :
    ofText (String.ofList (before ++ (form ++ List.replicate slashes '/' ++ after))) = .ok name := by
  obtain ⟨blank, blank'⟩ := List.forall_mem_append.1 blank
  have owner' : name.owner.toList ≠ [] := by simpa using owner
  have repo' : name.repo.toList ≠ [] := by simpa using repo
  have ownerChars := fun c member => isNameChar_of_isPlainChar (plain.owner c member)
  have repoChars := fun c member => isNameChar_of_isPlainChar (plain.repo c member)
  cases isForm with
  | short =>
    rw [List.append_assoc]
    exact ofText_padded owner repo (List.forall_mem_append.2 ⟨ownerChars, repoChars⟩) blank blank' slashes
  | @address scheme ending more known ended behind =>
    have ends : ∀ c ∈ ending, isNameChar c = true := by
      rcases ended with rfl | rfl
      · exact fun c member => absurd member List.not_mem_nil
      · exact isNameChar_of_mem_git
    have next : ∀ c, (more ++ List.replicate slashes '/').head? = some c → c = '/' := by
      intro c first
      cases more with
      | nil => exact List.eq_of_mem_replicate (List.mem_of_head? first)
      | cons d rest => exact behind c first
    have address := isAddress_trimmed known owner' ownerChars (List.append_ne_nil_of_left_ne_nil repo' ending)
      (List.forall_mem_append.2 ⟨repoChars, ends⟩) next blank blank'
    have written : name.repo.toList = withoutGit (name.repo.toList ++ ending) := by
      rcases ended with rfl | rfl
      · rw [List.append_nil, withoutGit_of_not_suffix bare]
      · rw [withoutGit_append]
    refine ofText_eq_ok_iff.2 ⟨name.owner.toList, name.repo.toList ++ ending, .inl ⟨?_, ?_⟩⟩
    · simpa [toList_fullName] using address
    · rw [← written, String.ofList_toList, String.ofList_toList]

end Forms

def react : RepoName := ⟨"facebook", "react.js"⟩

def page : List Char :=
  "https://".toList ++ (host ++ (react.fullName.toList ++ (".git".toList ++ "/tree/main?o/r".toList)))

theorem page_read :
    react.IsPlain ∧ react.owner ≠ "" ∧ react.repo ≠ "" ∧ ¬ ".git".toList <:+ react.repo.toList ∧ IsForm react page ∧
      (∀ c ∈ ['\t'] ++ ['\n'], isBlank c = true) ∧
      ofText (String.ofList (['\t'] ++ (page ++ List.replicate 2 '/' ++ ['\n']))) = .ok react := by
  have plain : react.IsPlain := ⟨by decide, by decide⟩
  have bare : ¬ ".git".toList <:+ react.repo.toList := by decide
  have isForm : IsForm react page := .address (by decide) (.inr rfl) fun c first => (Option.some.inj first).symm
  have blank : ∀ c ∈ ['\t'] ++ ['\n'], isBlank c = true := by decide
  exact ⟨plain, by decide, by decide, bare, isForm, blank, ofText_form plain (by decide) (by decide) bare isForm blank 2⟩

end RepoName

end CodeDeck
