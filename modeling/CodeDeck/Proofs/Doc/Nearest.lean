import CodeDeck.Proofs.Doc
import CodeDeck.Proofs.Scan.Token
import Mathlib.Data.List.DropRight
import Mathlib.Data.Nat.Find

/-! The block comment directly above a declaration, and whether the documentation is the one of this comment. The search
takes the first opener in its window that no close follows up to the end, also one that stands in a literal or in the
middle of a plain comment. -/

namespace CodeDeck.Doc

open CodeDeck.Text CodeDeck.Scan

def comment (body : List Char) : List Char := ['/', '*'] ++ (body ++ closer)

/-- What a block comment documents. Only one that starts with two stars does. -/
def own? : List Char → Option (List Char)
  | '*' :: inside => prose? inside
  | _ => none

/-! Nothing but blanks and stars gets lost in prose. -/

theorem count_dropMarker {c : Char} (inked : isBlank c = false) (other : c ≠ '*') (line : List Char) :
    (dropMarker line).count c = line.count c := by
  have start := count_trimStart inked line
  unfold dropMarker
  split
  · next d rest found =>
    rw [found, List.count_cons_of_ne other.symm] at start
    split
    · next blank =>
      have apart : d ≠ c := by
        rintro rfl
        rw [inked] at blank
        contradiction
      rwa [List.count_cons_of_ne apart] at start
    · exact start
  · next found =>
    rw [found, List.count_cons_of_ne other.symm] at start
    exact start
  · rfl

theorem count_prose? {c : Char} (inked : isBlank c = false) (other : c ≠ '*') (inside : List Char) :
    ((prose? inside).getD []).count c = inside.count c := by
  have apart : c ≠ '\n' := by
    rintro rfl
    exact absurd inked (by decide)
  rw [prose?, count_joinProse inked, count_flatten_map (count_dropMarker inked other), count_flatten_lines apart]

/-! The comment right in front of an offset. -/

theorem endsWith_comment_iff {front body lead inside : List Char} (open_ : ¬ closer <:+: body) :
    EndsWith (front ++ comment body) lead inside ↔
      (∃ rest, front = lead ++ (opener ++ rest) ∧ inside = rest ++ ('/' :: '*' :: body) ∧ ¬ closer <:+: inside) ∨
        (lead = front ∧ body = '*' :: inside) ∨
          ∃ more, lead = front ++ ('/' :: '*' :: more) ∧ body = more ++ (opener ++ inside) := by
  have whole : EndsWith (front ++ comment body) lead inside ↔
      front ++ ('/' :: '*' :: body) = lead ++ (opener ++ inside) ∧ ¬ closer <:+: inside := by
    have left : front ++ comment body = (front ++ ('/' :: '*' :: body)) ++ closer := by simp [comment]
    have right : lead ++ (opener ++ (inside ++ closer)) = (lead ++ (opener ++ inside)) ++ closer := by simp
    rw [EndsWith, left, right, List.append_cancel_right_eq]
  rw [whole]
  constructor
  · rintro ⟨same, closed⟩
    -- the opener has only one slash, so that it does not reach from one side of the comment's start to the other
    rcases List.append_eq_append_iff.1 same with ⟨more, rfl, behind⟩ | ⟨rest, rfl, behind⟩
    · rcases more with _ | ⟨a, _ | ⟨b, more⟩⟩
      · obtain rfl : body = '*' :: inside := by simpa [opener] using behind
        exact .inr (.inl ⟨List.append_nil front, rfl⟩)
      · simp [opener] at behind
      · obtain ⟨rfl, rfl, rfl⟩ : '/' = a ∧ '*' = b ∧ body = more ++ (opener ++ inside) := by simpa using behind
        exact .inr (.inr ⟨more, rfl, rfl⟩)
    · rcases rest with _ | ⟨a, _ | ⟨b, _ | ⟨d, rest⟩⟩⟩
      · obtain rfl : body = '*' :: inside := by simpa [opener] using behind.symm
        exact .inr (.inl ⟨(List.append_nil lead).symm, rfl⟩)
      · simp [opener] at behind
      · simp [opener] at behind
      · obtain ⟨rfl, rfl, rfl, rfl⟩ : '/' = a ∧ '*' = b ∧ '*' = d ∧ inside = rest ++ '/' :: '*' :: body := by
          simpa [opener] using behind
        exact .inl ⟨rest, rfl, rfl, closed⟩
  · rintro (⟨rest, rfl, rfl, closed⟩ | ⟨rfl, rfl⟩ | ⟨more, rfl, rfl⟩)
    · exact ⟨by simp, closed⟩
    · exact ⟨by simp [opener], fun within => open_ (within.trans (List.suffix_cons ..).isInfix)⟩
    · refine ⟨by simp, fun within => open_ (within.trans ?_)⟩
      exact ((List.suffix_append ..).trans (List.suffix_append ..)).isInfix

/-- A documentation comment opens in the text `front` and ends only with the comment behind it. -/
def Stray (front body : List Char) : Prop :=
  ∃ rest, opener ++ rest <:+ front ∧ ¬ closer <:+: rest ++ '/' :: '*' :: body

instance (front body : List Char) : Decidable (Stray front body) :=
  decidable_of_iff (∃ t ∈ front.tails, opener <+: t ∧ ¬ closer <:+: t.drop 3 ++ '/' :: '*' :: body) <| by
    constructor
    · rintro ⟨t, part, ⟨rest, rfl⟩, closed⟩
      exact ⟨rest, (List.mem_tails _ _).1 part, closed⟩
    · rintro ⟨rest, part, closed⟩
      exact ⟨opener ++ rest, (List.mem_tails _ _).2 part, List.prefix_append .., closed⟩

theorem exists_blockComment? {s lead inside : List Char} (ends : EndsWith s lead inside) :
    ∃ inside', blockComment? s = some inside' := by
  have some : ∃ n lead inside, EndsWith s lead inside ∧ lead.length = n := ⟨_, lead, inside, ends, rfl⟩
  classical
  obtain ⟨lead', inside', ends', length⟩ := Nat.find_spec some
  refine ⟨inside', blockComment?_eq_some_iff.2 ⟨lead', ends', fun other behind ends => ?_⟩⟩
  rw [length]
  exact Nat.find_min' some ⟨other, behind, ends, rfl⟩

section Comment

variable {front body : List Char} (open_ : ¬ closer <:+: body)
include open_

/-- A stray opener is found in front of the opener of the comment. -/
theorem blockComment?_stray (stray : Stray front body) :
    ∃ rest, blockComment? (front ++ comment body) = some (rest ++ '/' :: '*' :: body) := by
  obtain ⟨behind, ⟨lead, rfl⟩, closed⟩ := stray
  have ends : EndsWith (lead ++ (opener ++ behind) ++ comment body) lead (behind ++ '/' :: '*' :: body) :=
    (endsWith_comment_iff open_).2 (.inl ⟨behind, rfl, rfl, closed⟩)
  obtain ⟨inside, found⟩ := exists_blockComment? ends
  obtain ⟨first, ends', shortest⟩ := blockComment?_eq_some_iff.1 found
  have short := shortest _ _ ends
  rcases (endsWith_comment_iff open_).1 ends' with ⟨rest, _, rfl, _⟩ | ⟨rfl, _⟩ | ⟨more, rfl, _⟩
  · exact ⟨rest, found⟩
  · simp only [opener, List.length_append, List.length_cons] at short
    omega
  · simp only [opener, List.length_append, List.length_cons] at short
    omega

theorem blockComment?_own (own : ¬ Stray front body) {inside : List Char} (starts : body = '*' :: inside) :
    blockComment? (front ++ comment body) = some inside := by
  have ends : EndsWith (front ++ comment body) front inside :=
    (endsWith_comment_iff open_).2 (.inr (.inl ⟨rfl, starts⟩))
  refine blockComment?_eq_some_iff.2 ⟨front, ends, fun lead' inside' ends' => ?_⟩
  rcases (endsWith_comment_iff open_).1 ends' with ⟨rest, rfl, rfl, closed⟩ | ⟨rfl, _⟩ | ⟨more, rfl, _⟩
  · exact absurd ⟨rest, List.suffix_append .., closed⟩ own
  · exact Nat.le_refl _
  · simp

theorem blockComment?_plain (own : ¬ Stray front body) (plain : body.head? ≠ some '*') {inside : List Char}
    (found : blockComment? (front ++ comment body) = some inside) :
    opener ++ inside <:+ body ∧ ∀ rest, opener ++ rest <:+ body → opener ++ rest <:+ opener ++ inside := by
  obtain ⟨lead, ends, shortest⟩ := blockComment?_eq_some_iff.1 found
  rcases (endsWith_comment_iff open_).1 ends with ⟨rest, rfl, rfl, closed⟩ | ⟨_, rfl⟩ | ⟨more, rfl, same⟩
  · exact absurd ⟨rest, List.suffix_append .., closed⟩ own
  · exact absurd rfl plain
  · have within : opener ++ inside <:+ body := ⟨more, same.symm⟩
    refine ⟨within, fun rest other => ?_⟩
    obtain ⟨more', same'⟩ := other
    have short := shortest _ _ ((endsWith_comment_iff open_).2 (.inr (.inr ⟨more', rfl, same'.symm⟩)))
    have length := congrArg List.length (same.symm.trans same'.symm)
    apply List.suffix_of_suffix_length_le ⟨more', same'⟩ within
    simp only [List.length_append, List.length_cons] at short length ⊢
    omega

end Comment

theorem eq_or_mem_of_suffix {inside rest : List Char} (part : opener ++ rest <:+ opener ++ inside) :
    rest = inside ∨ '/' ∈ inside := by
  rcases List.suffix_cons_iff.1 part with same | later
  · exact .inl (List.append_cancel_left same)
  · have slash : '/' ∈ '*' :: '*' :: inside := later.subset List.mem_cons_self
    exact .inr (by simpa using slash)

theorem count_own?_le {c : Char} (inked : isBlank c = false) (other : c ≠ '*') (body : List Char) :
    ((own? body).getD []).count c ≤ body.count c := by
  unfold own?
  split
  · next inside =>
    rw [count_prose? inked other]
    exact (List.sublist_cons_self ..).count_le c
  · exact Nat.zero_le _

theorem own?_plain {body : List Char} (plain : body.head? ≠ some '*') : own? body = none := by
  unfold own?
  split
  · exact absurd rfl plain
  · rfl

/-- What is found at the end of a text is the documentation of the last comment just when nothing opens in front of it,
and in a plain comment nothing with ink in it. -/
theorem prose?_own_iff {front body : List Char} (open_ : ¬ closer <:+: body) :
    (blockComment? (front ++ comment body)).bind prose? = own? body ↔
      ¬ Stray front body ∧ (body.head? = some '*' ∨ ∀ rest, opener ++ rest <:+ body → prose? rest = none) := by
  have inked : isBlank '/' = false := by decide
  by_cases stray : Stray front body
  · refine iff_of_false ?_ (fun both => both.1 stray)
    obtain ⟨rest, found⟩ := blockComment?_stray open_ stray
    rw [found, Option.bind_some]
    -- the opener of the comment itself is a part of the text, with a slash that the documentation does not have
    intro same
    have more := count_prose? inked (by decide) (rest ++ '/' :: '*' :: body)
    have less := count_own?_le inked (by decide) body
    rw [same] at more
    simp only [List.count_append, List.count_cons_self] at more
    rw [List.count_cons_of_ne (by decide)] at more
    omega
  · by_cases starred : body.head? = some '*'
    · obtain ⟨inside, rfl⟩ := List.head?_eq_some_iff.1 starred
      rw [blockComment?_own open_ stray rfl]
      exact iff_of_true rfl ⟨stray, .inl starred⟩
    · rw [own?_plain starred]
      constructor
      · intro none
        refine ⟨stray, .inr fun rest other => ?_⟩
        obtain ⟨more, same⟩ := other
        have within : EndsWith (front ++ comment body) (front ++ '/' :: '*' :: more) rest :=
          (endsWith_comment_iff open_).2 (.inr (.inr ⟨more, rfl, same.symm⟩))
        obtain ⟨inside, found⟩ := exists_blockComment? within
        rw [found, Option.bind_some] at none
        have part := (blockComment?_plain open_ stray starred found).2 rest ⟨more, same⟩
        rcases eq_or_mem_of_suffix part with rfl | slash
        · exact none
        · have count := count_prose? inked (by decide) inside
          rw [none] at count
          exact absurd slash (List.count_eq_zero.1 count.symm)
      · rintro ⟨_, starts | quiet⟩
        · contradiction
        · cases found : blockComment? (front ++ comment body) with
          | none => rfl
          | some inside => exact quiet inside (blockComment?_plain open_ stray starred found).1

/-! What a declaration gets from the text in front of it. -/

theorem trimEnd_comment {gap : List Char} (blank : ∀ c ∈ gap, isBlank c = true) (front body : List Char) :
    trimEnd (front ++ (comment body ++ gap)) = front ++ comment body := by
  have back : (front ++ (comment body ++ gap)).reverse =
      gap.reverse ++ ('/' :: '*' :: (front ++ '/' :: '*' :: body).reverse) := by
    simp [comment, closer]
  have inked : isBlank '/' = false := by decide
  rw [trimEnd, back, List.dropWhile_append_of_pos (by simpa using blank), List.dropWhile_cons_of_neg (by simp [inked])]
  simp [comment, closer]

/-- Behind a comment of at most the window, with the gap to its declaration, the documentation is that of the comment
just when no documentation comment opens in the rest of the window that is still open there, and none with ink in it
opens in a plain comment. -/
theorem block?_own_iff {body gap : List Char} (open_ : ¬ closer <:+: body) (blank : ∀ c ∈ gap, isBlank c = true)
    (room : (comment body ++ gap).length ≤ window) (before after : List Char) :
    block? (before ++ (comment body ++ gap) ++ after) (before ++ (comment body ++ gap)).length = own? body ↔
      ¬ Stray (before.rtake (window - (comment body ++ gap).length)) body ∧
        (body.head? = some '*' ∨ ∀ rest, opener ++ rest <:+ body → prose? rest = none) := by
  have seen : (before ++ (comment body ++ gap)).drop ((before ++ (comment body ++ gap)).length - window) =
      before.rtake (window - (comment body ++ gap).length) ++ (comment body ++ gap) := by
    have offset : (before ++ (comment body ++ gap)).length - window =
        before.length - (window - (comment body ++ gap).length) := by
      rw [List.length_append]
      omega
    rw [offset, List.drop_append_of_le_length (Nat.sub_le ..), List.rtake]
  rw [block?_append, seen, trimEnd_comment blank]
  exact prose?_own_iff open_

def older : List Char := "/** Older. */\nlet n = 1;\n".toList

def lists : List Char := "* Lists\n * all. ".toList

theorem nearest_comment_documents :
    (¬ closer <:+: lists ∧ (∀ c ∈ ['\n'], isBlank c = true) ∧ (comment lists ++ ['\n']).length ≤ window) ∧
      (¬ Stray (older.rtake (window - (comment lists ++ ['\n']).length)) lists ∧ lists.head? = some '*') ∧
      block? (older ++ (comment lists ++ ['\n']) ++ "export".toList) (older ++ (comment lists ++ ['\n'])).length =
        some "Lists all.".toList := by
  have open_ : ¬ closer <:+: lists := by decide
  have blank : ∀ c ∈ ['\n'], isBlank c = true := List.forall_mem_singleton.2 (by decide)
  have room : (comment lists ++ ['\n']).length ≤ window := by decide
  have alone : ¬ Stray (older.rtake (window - (comment lists ++ ['\n']).length)) lists := by decide +kernel
  have starred : lists.head? = some '*' := rfl
  have own : own? lists = some "Lists all.".toList := by decide
  refine ⟨⟨open_, blank, room⟩, ⟨alone, starred⟩, ?_⟩
  rw [← own]
  exact (block?_own_iff open_ blank room older "export".toList).2 ⟨alone, .inl starred⟩

def pathList : List Char := "const all = \"src/**\";\n".toList

/-- A documentation comment begins in a literal, and another one in the middle of a plain comment. -/
theorem stray_opener_documents :
    (pathList = (tokens defaultQuotes pathList).flatMap Token.text ∧ own? lists = some "Lists all.".toList ∧
      block? (pathList ++ (comment lists ++ ['\n']) ++ "export".toList) (pathList ++ (comment lists ++ ['\n'])).length =
        some "\"; /** Lists all.".toList) ∧
    (own? " in src/** only ".toList = none ∧
      block? (comment " in src/** only ".toList ++ "export".toList) (comment " in src/** only ".toList).length =
        some "only".toList) := by
  have cut : pathList = (tokens defaultQuotes pathList).flatMap Token.text := by cbv
  exact ⟨⟨cut, by decide, by decide +kernel⟩, by decide, by decide +kernel⟩

end CodeDeck.Doc
