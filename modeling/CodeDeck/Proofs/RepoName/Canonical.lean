import CodeDeck.Proofs.RepoName.Reading

/-! Names that can be put into addresses and keys. A name that has been read is the same when its full name is read
again unless it holds blanks or lacks its second part; an address can bring such names, and the signs of its query. -/

namespace CodeDeck.RepoName

open CodeDeck.Text

def isClear (c : Char) : Bool := !isBlank c && c != '?' && c != '#'

/-- Does the name hold two parts of plain text? -/
structure IsCanonical (name : RepoName) : Prop where
  owner : name.owner ≠ ""
  repo : name.repo ≠ ""
  ownerFree : '/' ∉ name.owner.toList
  repoFree : '/' ∉ name.repo.toList
  clear : ∀ c ∈ name.owner.toList ++ name.repo.toList, isBlank c = false ∧ c ≠ '?' ∧ c ≠ '#'

/-- Are the two parts in the text clear, and is the second part of an address more than its ending? -/
def IsClean (text : String) : Prop :=
  (∃ owner repo, IsAddress (trimmed text) owner repo ∧ (∀ c ∈ owner ++ repo, isClear c = true) ∧
      repo ≠ ".git".toList) ∨
    (∀ owner repo, ¬ IsAddress (trimmed text) owner repo) ∧
      ∃ owner repo, IsShort (trimmed text) owner repo ∧ ∀ c ∈ owner ++ repo, isClear c = true

theorem isClear_iff {c : Char} : isClear c = true ↔ isBlank c = false ∧ c ≠ '?' ∧ c ≠ '#' := by
  simp [isClear, and_assoc]

theorem isClear_of_mem_git : ∀ c ∈ ".git".toList, isClear c = true := by decide

theorem withoutGit_cases (part : List Char) : part = withoutGit part ++ ".git".toList ∨ withoutGit part = part := by
  by_cases ended : ".git".toList <:+ part
  · obtain ⟨front, rfl⟩ := ended
    exact .inl (by rw [withoutGit_append])
  · exact .inr (withoutGit_of_not_suffix ended)

theorem IsAddress.unique {s owner repo owner' repo' : List Char} (found : IsAddress s owner repo)
    (found' : IsAddress s owner' repo') : owner = owner' ∧ repo = repo' := by
  rw [← inAddress?_eq_some_iff] at found found'
  exact Prod.mk.inj (Option.some.inj (found.symm.trans found'))

theorem IsShort.unique {s owner repo owner' repo' : List Char} (found : IsShort s owner repo)
    (found' : IsShort s owner' repo') : owner = owner' ∧ repo = repo' := by
  rw [← shortForm?_eq_some_iff] at found found'
  exact Prod.mk.inj (Option.some.inj (found.symm.trans found'))

section Names

variable {name : RepoName}

/-- Reading the full name gives the name back exactly when both parts are there and hold no blanks. -/
theorem ofText_fullName_iff (ownerFree : '/' ∉ name.owner.toList) (repoFree : '/' ∉ name.repo.toList) :
    ofText name.fullName = .ok name ↔
      name.owner ≠ "" ∧ name.repo ≠ "" ∧ ∀ c ∈ name.owner.toList ++ name.repo.toList, isBlank c = false := by
  constructor
  · intro parsed
    obtain ⟨owner, repo, ⟨found, -⟩ | ⟨-, found, same⟩⟩ := ofText_eq_ok_iff.1 parsed
    · exact absurd found (not_isAddress_fullName ownerFree repoFree (trimmed_isInfix name.fullName).sublist)
    · subst same
      refine ⟨by simpa using found.ownerSome, by simpa using found.repoSome, ?_⟩
      simp only [String.toList_ofList]
      exact List.forall_mem_append.2
        ⟨fun c member => (isNameChar_iff.1 (found.ownerChars c member)).2,
          fun c member => (isNameChar_iff.1 (found.repoChars c member)).2⟩
  · rintro ⟨owner, repo, inked⟩
    have free : '/' ∉ name.owner.toList ++ name.repo.toList := by simp [ownerFree, repoFree]
    have chars : ∀ c ∈ name.owner.toList ++ name.repo.toList, isNameChar c = true :=
      fun c member => isNameChar_iff.2 ⟨List.forall_mem_ne'.2 free c member, inked c member⟩
    have read := ofText_padded owner repo chars (List.forall_mem_nil _) (List.forall_mem_nil _) 0
    simpa using read

theorem canonical_iff (owner : name.owner ≠ "") (ownerFree : '/' ∉ name.owner.toList)
    (repoFree : '/' ∉ name.repo.toList) :
    name.IsCanonical ∧ ofText name.fullName = .ok name ↔
      name.repo ≠ "" ∧ ∀ c ∈ name.owner.toList ++ name.repo.toList, isClear c = true := by
  rw [ofText_fullName_iff ownerFree repoFree]
  simp only [isClear_iff]
  constructor
  · rintro ⟨canonical, -⟩
    exact ⟨canonical.repo, canonical.clear⟩
  · rintro ⟨repo, clear⟩
    exact ⟨⟨owner, repo, ownerFree, repoFree, clear⟩, owner, repo, fun c member => (clear c member).1⟩

end Names

section Read

variable {text : String} {name : RepoName}

theorem free_of_ofText (parsed : ofText text = .ok name) :
    name.owner ≠ "" ∧ '/' ∉ name.owner.toList ∧ '/' ∉ name.repo.toList := by
  obtain ⟨owner, repo, ⟨⟨_, _, _, parts, _⟩, rfl⟩ | ⟨_, short, rfl⟩⟩ := ofText_eq_ok_iff.1 parsed
  · refine ⟨by simpa using parts.ownerSome, by simpa using parts.ownerFree, ?_⟩
    rw [String.toList_ofList]
    intro member
    apply parts.repoFree
    rcases withoutGit_cases repo with ended | same
    · rw [ended]
      exact List.mem_append_left _ member
    · exact same ▸ member
  · exact ⟨by simpa using short.ownerSome, by simpa using slash_notMem short.ownerChars,
      by simpa using slash_notMem short.repoChars⟩

theorem isClean_of_isAddress {owner repo : List Char} (found : IsAddress (trimmed text) owner repo) :
    IsClean text ↔ (∀ c ∈ owner ++ repo, isClear c = true) ∧ repo ≠ ".git".toList := by
  constructor
  · rintro (⟨owner', repo', found', clear, more⟩ | ⟨none, -⟩)
    · obtain ⟨rfl, rfl⟩ := found.unique found'
      exact ⟨clear, more⟩
    · exact absurd found (none owner repo)
  · rintro ⟨clear, more⟩
    exact .inl ⟨owner, repo, found, clear, more⟩

theorem isClean_of_isShort {owner repo : List Char} (none : ∀ owner repo, ¬ IsAddress (trimmed text) owner repo)
    (found : IsShort (trimmed text) owner repo) : IsClean text ↔ ∀ c ∈ owner ++ repo, isClear c = true := by
  constructor
  · rintro (⟨owner', repo', address, -⟩ | ⟨-, owner', repo', found', clear⟩)
    · exact absurd address (none owner' repo')
    · obtain ⟨rfl, rfl⟩ := found.unique found'
      exact clear
  · intro clear
    exact .inr ⟨none, owner, repo, found, clear⟩

theorem forall_isClear_withoutGit_iff {part : List Char} :
    (∀ c ∈ withoutGit part, isClear c = true) ↔ ∀ c ∈ part, isClear c = true := by
  rcases withoutGit_cases part with ended | same
  · generalize withoutGit part = front at ended
    subst ended
    rw [List.forall_mem_append, and_iff_left isClear_of_mem_git]
  · rw [same]

theorem withoutGit_eq_nil_iff {part : List Char} (some : part ≠ []) : withoutGit part = [] ↔ part = ".git".toList := by
  constructor
  · intro none
    rcases withoutGit_cases part with ended | same
    · rw [ended, none, List.nil_append]
    · exact absurd (same.symm.trans none) some
  · rintro rfl
    exact withoutGit_append []

/-- A name that is read has an owner and no slashes within its parts. Its full name is read as the same name exactly when
it has a second part and no blanks; and it is canonical as well exactly when the text is clean. -/
theorem ofText_canonical_iff (parsed : ofText text = .ok name) :
    (name.owner ≠ "" ∧ '/' ∉ name.owner.toList ∧ '/' ∉ name.repo.toList) ∧
      (ofText name.fullName = .ok name ↔
        name.repo ≠ "" ∧ ∀ c ∈ name.owner.toList ++ name.repo.toList, isBlank c = false) ∧
      (name.IsCanonical ∧ ofText name.fullName = .ok name ↔ IsClean text) := by
  obtain ⟨owner, ownerFree, repoFree⟩ := free_of_ofText parsed
  refine ⟨⟨owner, ownerFree, repoFree⟩, ?_, ?_⟩
  · rw [ofText_fullName_iff ownerFree repoFree, and_iff_right owner]
  · rw [canonical_iff owner ownerFree repoFree]
    obtain ⟨first, second, ⟨found, rfl⟩ | ⟨none, found, rfl⟩⟩ := ofText_eq_ok_iff.1 parsed
    · have some : second ≠ [] := by
        obtain ⟨_, _, _, parts, _⟩ := found
        exact parts.repoSome
      have empty : String.ofList (withoutGit second) ≠ "" ↔ second ≠ ".git".toList := by
        rw [← not_iff_not, not_not, not_not, ← withoutGit_eq_nil_iff some]
        simp
      simp only [isClean_of_isAddress found, List.forall_mem_append, String.toList_ofList, forall_isClear_withoutGit_iff]
      rw [empty, and_comm]
    · have some : String.ofList second ≠ "" := by simpa using found.repoSome
      rw [isClean_of_isShort none found, and_iff_right some, String.toList_ofList, String.toList_ofList]

end Read

def projectPage : String := "see https://github.com/o/r.git/issues"

theorem project_page_canonical :
    ofText projectPage = .ok ⟨"o", "r"⟩ ∧ IsClean projectPage ∧ IsCanonical ⟨"o", "r"⟩ ∧
      ofText (fullName ⟨"o", "r"⟩) = .ok ⟨"o", "r"⟩ := by
  have parsed : ofText projectPage = .ok ⟨"o", "r"⟩ := by decide +kernel
  have address : IsAddress (trimmed projectPage) ['o'] "r.git".toList := inAddress?_eq_some_iff.1 (by decide +kernel)
  have clean : IsClean projectPage := (isClean_of_isAddress address).2 ⟨by decide +kernel, by decide⟩
  obtain ⟨canonical, again⟩ := (ofText_canonical_iff parsed).2.2.2 clean
  exact ⟨parsed, clean, canonical, again⟩

/-- The query of an address, a blank and an ending without a name come into what is read. -/
theorem unclean_addresses :
    (ofText "https://github.com/o/r?tab=readme" = .ok ⟨"o", "r?tab=readme"⟩ ∧ ¬ IsCanonical ⟨"o", "r?tab=readme"⟩) ∧
      (ofText "github.com/o/.git" = .ok ⟨"o", ""⟩ ∧ ¬ IsCanonical ⟨"o", ""⟩ ∧
        ofText (fullName ⟨"o", ""⟩) ≠ .ok ⟨"o", ""⟩) ∧
      (ofText "see github.com/o/r for more" = .ok ⟨"o", "r for more"⟩ ∧ ¬ IsCanonical ⟨"o", "r for more"⟩ ∧
        ofText (fullName ⟨"o", "r for more"⟩) ≠ .ok ⟨"o", "r for more"⟩) := by
  refine ⟨⟨by decide +kernel, ?_⟩, ⟨by decide +kernel, fun canonical => canonical.repo rfl, by decide +kernel⟩,
    by decide +kernel, ?_, by decide +kernel⟩
  · intro canonical
    exact (canonical.clear '?' (by decide)).2.1 rfl
  · intro canonical
    exact absurd (canonical.clear ' ' (by decide)).1 (by decide)

end CodeDeck.RepoName
