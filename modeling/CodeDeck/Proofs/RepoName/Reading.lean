import CodeDeck.Proofs.Text.Lines
import CodeDeck.RepoName
import Mathlib.Data.List.DropRight

/-! What a text is read as. An address is the first place of the host with two parts behind it; only a text without an
address is read as the two parts themselves. -/

namespace CodeDeck

open CodeDeck.Text

namespace Text

section Trimming

variable {p : Char → Bool} {front : List Char}

theorem rdropWhile_append (last : ∀ c, front.getLast? = some c → p c = false) (s : List Char) :
    (front ++ s).rdropWhile p = front ++ s.rdropWhile p := by
  induction s using List.reverseRecOn with
  | nil =>
    rw [List.rdropWhile_nil, List.append_nil, List.rdropWhile_eq_self_iff]
    intro some
    rw [last _ (List.getLast?_eq_some_getLast some)]
    exact Bool.false_ne_true
  | append_singleton s c ih =>
    rw [← List.append_assoc, List.rdropWhile_concat, List.rdropWhile_concat, ih]
    split
    · rfl
    · rw [List.append_assoc]

theorem trimEnd_eq_rdropWhile (s : List Char) : trimEnd s = s.rdropWhile isBlank := rfl

theorem dropTrailing_eq_rdropWhile (c : Char) (s : List Char) : dropTrailing c s = s.rdropWhile (· == c) := rfl

end Trimming

end Text

namespace RepoName

def trimmed (text : String) : List Char := dropTrailing '/' (trim text.toList)

/-- The text starts with two parts, and the second one goes as far as a slash or the end. -/
structure StartsWith (s owner repo : List Char) : Prop where
  text : ∃ more, s = owner ++ '/' :: (repo ++ more) ∧ ∀ c, more.head? = some c → c = '/'
  ownerSome : owner ≠ []
  repoSome : repo ≠ []
  ownerFree : '/' ∉ owner
  repoFree : '/' ∉ repo

/-- The parts stand behind the host, and at no place further in front two parts do. -/
def IsAddress (s owner repo : List Char) : Prop :=
  ∃ front behind, s = front ++ (host ++ behind) ∧ StartsWith behind owner repo ∧
    ∀ front' behind', s = front' ++ (host ++ behind') → front'.length < front.length →
      ∀ owner' repo', ¬ StartsWith behind' owner' repo'

structure IsShort (s owner repo : List Char) : Prop where
  text : ∃ more, s = owner ++ '/' :: (repo ++ more) ∧ (more = [] ∨ more = ['\n'])
  ownerSome : owner ≠ []
  repoSome : repo ≠ []
  ownerChars : ∀ c ∈ owner, isNameChar c = true
  repoChars : ∀ c ∈ repo, isNameChar c = true

section NameChars

variable {part : List Char}

theorem isNameChar_iff {c : Char} : isNameChar c = true ↔ c ≠ '/' ∧ isBlank c = false := by
  simp [isNameChar]

theorem slash_notMem (chars : ∀ c ∈ part, isNameChar c = true) : '/' ∉ part :=
  fun member => (isNameChar_iff.1 (chars '/' member)).1 rfl

theorem inked_of_nameChars (some : part ≠ []) (chars : ∀ c ∈ part, isNameChar c = true) (front : List Char) :
    ∀ c, (front ++ part).getLast? = .some c → isBlank c = false ∧ c ≠ '/' := by
  intro c last
  rw [List.getLast?_append_of_ne_nil _ some] at last
  exact (isNameChar_iff.1 (chars c (List.mem_of_getLast? last))).symm

end NameChars

section Trimmed

variable {before core more after : List Char}

theorem trimmed_eq (blank : ∀ c ∈ before, isBlank c = true) (blank' : ∀ c ∈ after, isBlank c = true) (some : core ≠ [])
    (first : ∀ c, core.head? = .some c → isBlank c = false)
    (last : ∀ c, core.getLast? = .some c → isBlank c = false ∧ c ≠ '/') :
    trimmed (String.ofList (before ++ (core ++ (more ++ after)))) = core ++ dropTrailing '/' (trimEnd more) := by
  have start : trimStart (core ++ (more ++ after)) = core ++ (more ++ after) := by
    apply trimStart_of_inked
    intro c
    rw [List.head?_append_of_ne_nil _ some]
    exact first c
  rw [trimmed, String.toList_ofList, trim_gap blank, trim, start, ← List.append_assoc, trimEnd_gap blank',
    trimEnd_eq_rdropWhile, rdropWhile_append fun c stands => (last c stands).1, dropTrailing_eq_rdropWhile,
    rdropWhile_append]
  · rfl
  · intro c stands
    exact beq_eq_false_iff_ne.2 (last c stands).2

theorem trimmed_slashes (slashes : Nat) : dropTrailing '/' (trimEnd (List.replicate slashes '/')) = [] := by
  rw [dropTrailing_eq_rdropWhile, List.rdropWhile_eq_nil_iff]
  intro c member
  exact beq_iff_eq.2 (List.eq_of_mem_replicate ((trimEnd_isPrefix _).subset member))

theorem trimmed_isInfix (text : String) : trimmed text <:+: text.toList := by
  rw [trimmed, dropTrailing_eq_rdropWhile]
  exact (List.rdropWhile_prefix _ _).isInfix.trans (trim_isInfix _)

end Trimmed

variable {s owner repo : List Char}

theorem takeWhile_part {a more : List Char} (free : '/' ∉ a) (ends : ∀ c, more.head? = some c → c = '/') :
    (a ++ more).takeWhile (· != '/') = a ∧ (a ++ more).dropWhile (· != '/') = more := by
  have kept : ∀ c ∈ a, (c != '/') = true := fun c member => bne_iff_ne.2 fun same => free (same ▸ member)
  rw [List.takeWhile_append_of_pos kept, List.dropWhile_append_of_pos kept]
  cases more with
  | nil => simp
  | cons c rest => simp [ends c rfl]

theorem partsBehindHost?_eq_some_iff : partsBehindHost? s = some (owner, repo) ↔ StartsWith s owner repo := by
  constructor
  · intro found
    simp only [partsBehindHost?, Option.ite_none_left_eq_some, Option.some.injEq, Prod.mk.injEq, not_or] at found
    obtain ⟨⟨some, some'⟩, rfl, rfl⟩ := found
    have free (t : List Char) : '/' ∉ t.takeWhile (· != '/') := by
      intro member
      have other := List.mem_takeWhile_imp member
      simp at other
    have next (t : List Char) (c : Char) (first : (t.dropWhile (· != '/')).head? = .some c) : c = '/' := by
      have stop := List.head?_dropWhile_not (· != '/') t
      rw [first] at stop
      simpa using stop
    refine ⟨⟨((s.dropWhile (· != '/')).drop 1).dropWhile (· != '/'), ?_, next _⟩, some, some', free _, free _⟩
    have whole := List.takeWhile_append_dropWhile (p := (· != '/')) (l := s)
    have first := next s
    rw [List.takeWhile_append_dropWhile]
    cases behind : s.dropWhile (· != '/') with
    | nil => simp [behind] at some'
    | cons c rest =>
      obtain rfl := first c (by rw [behind]; rfl)
      rw [behind] at whole
      exact whole.symm
  · rintro ⟨⟨more, rfl, ends⟩, some, some', free, free'⟩
    have next : ∀ c, ('/' :: (repo ++ more)).head? = .some c → c = '/' := fun c first => (Option.some.inj first).symm
    obtain ⟨taken, left⟩ := takeWhile_part free next
    obtain ⟨taken', -⟩ := takeWhile_part free' ends
    simp [partsBehindHost?, taken, left, taken', some, some']

theorem host_isPrefixOf_iff {c : Char} {rest behind : List Char} :
    c :: rest = host ++ behind ↔ host.isPrefixOf (c :: rest) = true ∧ behind = rest.drop 10 := by
  have length : host.length = 11 := by decide
  rw [List.isPrefixOf_iff_prefix]
  constructor
  · intro same
    have dropped := congrArg (List.drop 11) same
    rw [List.drop_left' length, List.drop_succ_cons] at dropped
    exact ⟨⟨behind, same.symm⟩, dropped.symm⟩
  · rintro ⟨⟨more, same⟩, rfl⟩
    have dropped := congrArg (List.drop 11) same
    rw [List.drop_left' length, List.drop_succ_cons] at dropped
    rw [← same, dropped]

theorem not_isAddress_nil : ¬ IsAddress [] owner repo := by
  rintro ⟨front, behind, same, -⟩
  have lengths := congrArg List.length same
  have length : host.length = 11 := by decide
  simp only [List.length_nil, List.length_append, length] at lengths
  omega

theorem isAddress_cons_iff {c : Char} {rest : List Char} :
    IsAddress (c :: rest) owner repo ↔
      (host.isPrefixOf (c :: rest) = true ∧ StartsWith (rest.drop 10) owner repo) ∨
        (¬ (host.isPrefixOf (c :: rest) = true ∧ ∃ owner' repo', StartsWith (rest.drop 10) owner' repo') ∧
          IsAddress rest owner repo) := by
  constructor
  · rintro ⟨front, behind, same, parts, first⟩
    cases front with
    | nil =>
      obtain ⟨starts, rfl⟩ := host_isPrefixOf_iff.1 same
      exact .inl ⟨starts, parts⟩
    | cons d front =>
      obtain ⟨rfl, tail⟩ := List.cons.inj same
      refine .inr ⟨?_, front, behind, tail, parts, fun front' behind' same' less => ?_⟩
      · rintro ⟨starts, owner', repo', parts'⟩
        exact first [] _ (host_isPrefixOf_iff.2 ⟨starts, rfl⟩) (Nat.succ_pos _) owner' repo' parts'
      · exact first (c :: front') behind' (by rw [same', List.cons_append]) (Nat.succ_lt_succ less)
  · rintro (⟨starts, parts⟩ | ⟨other, front, behind, same, parts, first⟩)
    · exact ⟨[], rest.drop 10, host_isPrefixOf_iff.2 ⟨starts, rfl⟩, parts, fun _ _ _ less => absurd less (Nat.not_lt_zero _)⟩
    · refine ⟨c :: front, behind, by rw [same, List.cons_append], parts, fun front' behind' same' less => ?_⟩
      intro owner' repo' parts'
      cases front' with
      | nil =>
        obtain ⟨starts, rfl⟩ := host_isPrefixOf_iff.1 same'
        exact other ⟨starts, owner', repo', parts'⟩
      | cons d front' =>
        exact first front' behind' (List.cons.inj same').2 (Nat.lt_of_succ_lt_succ less) owner' repo' parts'

theorem inAddress?_eq_some_iff : inAddress? s = some (owner, repo) ↔ IsAddress s owner repo := by
  induction s with
  | nil => simp [inAddress?, not_isAddress_nil]
  | cons c rest ih =>
    rw [isAddress_cons_iff, ← ih, inAddress?, ← partsBehindHost?_eq_some_iff]
    simp only [← partsBehindHost?_eq_some_iff]
    by_cases starts : host.isPrefixOf (c :: rest) = true
    · cases parts : partsBehindHost? (rest.drop 10) with
      | none => simp [starts]
      | some found =>
        obtain ⟨owner', repo'⟩ := found
        simp [starts]
    · simp [starts]

theorem shortForm?_eq_some_iff : shortForm? s = some (owner, repo) ↔ IsShort s owner repo := by
  have slash : isNameChar '/' = false := by decide
  have newline : isNameChar '\n' = false := by decide
  constructor
  · intro found
    unfold shortForm? at found
    have whole := List.takeWhile_append_dropWhile (p := isNameChar) (l := s)
    dsimp only at found
    split at found
    · next rest behind =>
      split at found
      · contradiction
      · next some =>
        rw [not_or] at some
        split at found
        · next ended =>
          obtain ⟨rfl, rfl⟩ := Prod.mk.inj (Option.some.inj found)
          refine ⟨⟨_, ?_, ended⟩, some.1, some.2, fun c => List.mem_takeWhile_imp, fun c => List.mem_takeWhile_imp⟩
          rw [List.takeWhile_append_dropWhile, ← behind, whole]
        · contradiction
    · contradiction
  · rintro ⟨⟨more, rfl, ended⟩, some, some', chars, chars'⟩
    have stops : more.takeWhile isNameChar = [] ∧ more.dropWhile isNameChar = more := by
      rcases ended with rfl | rfl
      · exact ⟨rfl, rfl⟩
      · exact ⟨List.takeWhile_cons_of_neg (by simp [newline]), List.dropWhile_cons_of_neg (by simp [newline])⟩
    simp [shortForm?, List.takeWhile_append_of_pos chars, List.dropWhile_append_of_pos chars, slash,
      List.takeWhile_append_of_pos chars', List.dropWhile_append_of_pos chars', stops, some, some', ended]

theorem IsAddress.two_le_count (found : IsAddress s owner repo) : 2 ≤ s.count '/' := by
  obtain ⟨front, behind, rfl, ⟨⟨more, rfl, -⟩, -⟩, -⟩ := found
  have own : host.count '/' = 1 := by decide
  simp only [List.count_append, List.count_cons_self, own]
  omega

theorem isAddress_append {front behind : List Char} (free : 'g' ∉ front) (parts : StartsWith behind owner repo) :
    IsAddress (front ++ (host ++ behind)) owner repo := by
  induction front with
  | nil => exact ⟨[], behind, rfl, parts, fun _ _ _ less => absurd less (Nat.not_lt_zero _)⟩
  | cons c front ih =>
    rw [List.mem_cons, not_or] at free
    rw [List.cons_append, isAddress_cons_iff]
    refine .inr ⟨?_, ih free.2⟩
    rintro ⟨starts, -⟩
    have start : 'g' :: "ithub.com/".toList <+: c :: (front ++ (host ++ behind)) := List.isPrefixOf_iff_prefix.1 starts
    exact free.1 (List.cons_prefix_cons.1 start).1

def withoutGit (part : List Char) : List Char := (dropSuffix? ".git".toList part).getD part

theorem withoutGit_append (part : List Char) : withoutGit (part ++ ".git".toList) = part := by
  simp [withoutGit, dropSuffix?]

theorem withoutGit_of_not_suffix {part : List Char} (other : ¬ ".git".toList <:+ part) : withoutGit part = part := by
  rw [withoutGit, dropSuffix?, if_neg (fun isSuffix => other (List.isSuffixOf_iff_suffix.1 isSuffix))]
  rfl

theorem ofText_eq_ok_iff {text : String} {name : RepoName} :
    ofText text = .ok name ↔
      ∃ owner repo,
        (IsAddress (trimmed text) owner repo ∧ name = ⟨String.ofList owner, String.ofList (withoutGit repo)⟩) ∨
          ((∀ owner' repo', ¬ IsAddress (trimmed text) owner' repo') ∧ IsShort (trimmed text) owner repo ∧
            name = ⟨String.ofList owner, String.ofList repo⟩) := by
  unfold ofText
  simp only [← inAddress?_eq_some_iff, ← shortForm?_eq_some_iff, trimmed]
  cases inAddress? (dropTrailing '/' (trim text.toList)) with
  | some parts =>
    obtain ⟨owner, repo⟩ := parts
    simp [withoutGit, eq_comm]
  | none =>
    cases shortForm? (dropTrailing '/' (trim text.toList)) with
    | some parts =>
      obtain ⟨owner, repo⟩ := parts
      simp [eq_comm]
    | none => simp

section FullName

variable {name : RepoName} {before after : List Char}

theorem toList_fullName (name : RepoName) : name.fullName.toList = name.owner.toList ++ '/' :: name.repo.toList := by
  simp [fullName, String.toList_append]

theorem not_isAddress_fullName (ownerFree : '/' ∉ name.owner.toList) (repoFree : '/' ∉ name.repo.toList)
    (within : s.Sublist name.fullName.toList) : ¬ IsAddress s owner repo := by
  intro found
  have slashes := found.two_le_count.trans (within.count_le '/')
  rw [toList_fullName, List.count_append, List.count_cons_self, List.count_eq_zero.2 ownerFree,
    List.count_eq_zero.2 repoFree] at slashes
  exact absurd slashes (by decide)

theorem ofText_padded (owner : name.owner ≠ "") (repo : name.repo ≠ "")
    (chars : ∀ c ∈ name.owner.toList ++ name.repo.toList, isNameChar c = true)
    (blank : ∀ c ∈ before, isBlank c = true) (blank' : ∀ c ∈ after, isBlank c = true) (slashes : Nat) :
    ofText (String.ofList (before ++ (name.fullName.toList ++ (List.replicate slashes '/' ++ after)))) = .ok name := by
  have owner' : name.owner.toList ≠ [] := by simpa using owner
  have repo' : name.repo.toList ≠ [] := by simpa using repo
  obtain ⟨ownerChars, repoChars⟩ := List.forall_mem_append.1 chars
  have read : trimmed (String.ofList (before ++ (name.fullName.toList ++ (List.replicate slashes '/' ++ after)))) =
      name.fullName.toList := by
    rw [trimmed_eq blank blank' (by simp [toList_fullName]), trimmed_slashes, List.append_nil]
    · intro c first
      rw [toList_fullName, List.head?_append_of_ne_nil _ owner'] at first
      exact (isNameChar_iff.1 (ownerChars c (List.mem_of_head? first))).2
    · rw [toList_fullName, ← List.singleton_append, ← List.append_assoc]
      exact inked_of_nameChars repo' repoChars _
  refine ofText_eq_ok_iff.2 ⟨name.owner.toList, name.repo.toList, .inr ⟨fun _ _ => ?_, ?_, by simp⟩⟩
  · rw [read]
    exact not_isAddress_fullName (slash_notMem ownerChars) (slash_notMem repoChars) (List.Sublist.refl _)
  · rw [read, toList_fullName]
    exact ⟨⟨[], by simp, .inl rfl⟩, owner', repo', ownerChars, repoChars⟩

end FullName

end RepoName

end CodeDeck
