import CodeDeck.Proofs.Text.Lines
import CodeDeck.Scan.Indent

/-! A block by indentation is made of adjacent lines, of which the header line is the first. A header on one line and
the lines below it that are indented deep enough are such a block, whatever else stands above and below. -/

namespace CodeDeck.Scan

open CodeDeck.Text

theorem le_of_headerEnd? {depth : Int} {i stop : Nat} {ls : List (List Char)}
    (found : headerEnd? depth i ls = some stop) : i ≤ stop := by
  induction ls generalizing depth i with
  | nil => contradiction
  | cons line rest ih =>
    simp only [headerEnd?] at found
    split at found
    · injection found with same
      omega
    · have later := ih found
      omega

theorem le_headerEnd (ls : List (List Char)) (start : Nat) : start ≤ headerEnd ls start := by
  unfold headerEnd
  cases found : headerEnd? 0 start (ls.drop start) with
  | none => exact Nat.le_refl _
  | some stop => exact le_of_headerEnd? found

theorem bodyLines_isPrefix (width : Nat) (below : List (List Char)) :
    bodyLines width below <+: below := by
  have kept : dropBlankTail (below.takeWhile fun line => allBlank line || width ≤ indentWidth line)
      <+: below.takeWhile fun line => allBlank line || width ≤ indentWidth line := by
    rw [← List.reverse_suffix, dropBlankTail, List.reverse_reverse]
    exact List.dropWhile_suffix _
  exact kept.trans (List.takeWhile_prefix _)

theorem header_body_isPrefix {ls : List (List Char)} {start stop : Nat} (after : start ≤ stop)
    (width : Nat) :
    (ls.drop start).take (stop + 1 - start) ++ bodyLines width (ls.drop (stop + 1)) <+:
      ls.drop start := by
  obtain ⟨rest, whole⟩ := bodyLines_isPrefix width (ls.drop (stop + 1))
  have below : ls.drop (stop + 1) = (ls.drop start).drop (stop + 1 - start) := by
    rw [List.drop_drop]
    congr 1
    omega
  refine ⟨rest, ?_⟩
  rw [List.append_assoc, whole, below, List.take_append_drop]

theorem indentBlock?_lines {ls : List (List Char)} {start : Nat} {body : List Char}
    (found : indentBlock? ls start = some body) :
    ∃ part, part ≠ [] ∧ part <+: ls.drop start ∧ body = joinLines part := by
  unfold indentBlock? at found
  split at found
  · contradiction
  · split at found
    · contradiction
    · next header present =>
      extract_lets stop below width head at found
      injection found with same
      have after : start ≤ stop := le_headerEnd ls start
      have inside : start < ls.length := (List.getElem?_eq_some_iff.1 present).1
      have nonempty : head ≠ [] := by
        have positive : 0 < head.length := by
          rw [List.length_take, List.length_drop]
          omega
        exact List.ne_nil_of_length_pos positive
      refine ⟨_, ?_, ?_, same.symm⟩
      · split
        · exact nonempty
        · exact List.append_ne_nil_of_left_ne_nil nonempty _
      · split
        · exact List.take_prefix ..
        · exact header_body_isPrefix after width

theorem indentWidth_of_inked {line : List Char} {c : Char} (first : line.head? = some c) (inked : isBlank c = false) :
    indentWidth line = 0 := by
  obtain ⟨rest, rfl⟩ := List.head?_eq_some_iff.1 first
  have outside : ¬ (c == ' ' || c == '\t') = true := by
    intro inside
    have blank : isBlank c = true := by
      rcases Bool.or_eq_true_iff.1 inside with space | tab
      · rw [beq_iff_eq.1 space]
        decide
      · rw [beq_iff_eq.1 tab]
        decide
    rw [inked] at blank
    contradiction
  rw [indentWidth, List.takeWhile_cons, if_neg outside, List.length_nil]

theorem blank_of_indentWidth {line : List Char} {c : Char} (first : line.head? = some c)
    (indented : 1 ≤ indentWidth line) : isBlank c = true := by
  cases blank : isBlank c with
  | true => rfl
  | false =>
    have flush := indentWidth_of_inked first blank
    omega

section Whole

/-- Lines that can be all of a body: the first one is not blank and has the given indentation, no line is indented
less, and the last one is not blank. -/
structure IsBody (width : Nat) (body : List (List Char)) : Prop where
  opens : ∃ first more, body = first :: more ∧ allBlank first = false ∧ indentWidth first = width
  deep : ∀ line ∈ body, allBlank line = true ∨ width ≤ indentWidth line
  inked : ∀ line, body.getLast? = some line → allBlank line = false

/-- The first line that is not blank is indented less than `width`, if there is one. -/
def Shallow (width : Nat) (below : List (List Char)) : Prop :=
  ∀ line, below.find? (fun line => !allBlank line) = some line → indentWidth line < width

variable {width : Nat} {body below : List (List Char)}

theorem blank_of_shallow (shallow : Shallow width below) :
    ∀ line ∈ below.takeWhile (fun line => allBlank line || width ≤ indentWidth line), allBlank line = true := by
  induction below with
  | nil => simp
  | cons line rest ih =>
    by_cases blank : allBlank line = true
    · have later : Shallow width rest := by
        intro other found
        apply shallow other
        rw [List.find?_cons_of_neg (by simp [blank])]
        exact found
      rw [List.takeWhile_cons_of_pos (by simp [blank])]
      intro other member
      rcases List.mem_cons.1 member with rfl | inner
      · exact blank
      · exact ih later other inner
    · have less : indentWidth line < width := by
        apply shallow line
        rw [List.find?_cons_of_pos (by simp [blank])]
      rw [List.takeWhile_cons_of_neg (by simp [blank, Nat.not_le.2 less])]
      simp

theorem dropBlankTail_append {blank : List (List Char)} (blanks : ∀ line ∈ blank, allBlank line = true)
    (inked : ∀ line, body.getLast? = some line → allBlank line = false) : dropBlankTail (body ++ blank) = body := by
  have front : blank.reverse.dropWhile allBlank = [] := by
    rw [List.dropWhile_eq_nil_iff]
    intro line member
    exact blanks line (List.mem_reverse.1 member)
  have stops : body.reverse.dropWhile allBlank = body.reverse := by
    rw [← List.head?_reverse] at inked
    cases back : body.reverse with
    | nil => rfl
    | cons line rest =>
      have kept : allBlank line = false := inked line (by rw [back]; rfl)
      exact List.dropWhile_cons_of_neg (by simp [kept])
  rw [dropBlankTail, List.reverse_append, List.dropWhile_append, if_pos (by rw [front]; rfl), stops,
    List.reverse_reverse]

theorem bodyLines_deep (deep : ∀ line ∈ body, allBlank line = true ∨ width ≤ indentWidth line)
    (inked : ∀ line, body.getLast? = some line → allBlank line = false) (shallow : Shallow width below) :
    bodyLines width (body ++ below) = body := by
  have kept : ∀ line ∈ body, (allBlank line || decide (width ≤ indentWidth line)) = true := by
    intro line member
    rw [Bool.or_eq_true, decide_eq_true_eq]
    exact deep line member
  rw [bodyLines, List.takeWhile_append_of_pos kept]
  exact dropBlankTail_append (blank_of_shallow shallow) inked

theorem bodyLines_append (whole : IsBody width body) (shallow : Shallow width below) :
    bodyLines width (body ++ below) = body :=
  bodyLines_deep whole.deep whole.inked shallow

theorem headerEnd_self {ls : List (List Char)} {start : Nat} {header : List Char} (stands : ls[start]? = some header)
    (closed : bracketBalance header ≤ 0) : headerEnd ls start = start := by
  obtain ⟨inside, same⟩ := List.getElem?_eq_some_iff.1 stands
  have ahead : ls.drop start = header :: ls.drop (start + 1) := by rw [List.drop_eq_getElem_cons inside, same]
  have stops : 0 + bracketBalance header ≤ 0 := by omega
  rw [headerEnd, ahead, headerEnd?, if_pos stops]
  rfl

/-- Where a header and its body stand among other lines, they are the block that starts there. -/
theorem indentBlock?_around {above : List (List Char)} {header : List Char} (closed : bracketBalance header ≤ 0)
    (whole : IsBody width body) (deeper : indentWidth header < width) (shallow : Shallow width below) :
    indentBlock? (above ++ header :: (body ++ below)) above.length = some (joinLines (header :: body)) := by
  obtain ⟨first, more, opens, inked, indented⟩ := whole.opens
  have stands : (above ++ header :: (body ++ below))[above.length]? = some header := by simp
  have many : ¬ (above ++ header :: (body ++ below)).length < 2 := by
    rw [opens]
    simp only [List.length_append, List.length_cons]
    omega
  have behind : (above ++ header :: (body ++ below)).drop (above.length + 1) = body ++ below := by
    rw [← List.drop_drop, List.drop_left]
    rfl
  have found : (body ++ below).find? (fun line => !allBlank line) = some first := by
    rw [opens, List.cons_append, List.find?_cons_of_pos (by simp [inked])]
  have head : ((above ++ header :: (body ++ below)).drop above.length).take (above.length + 1 - above.length) =
      [header] := by
    rw [List.drop_left, Nat.add_sub_cancel_left]
    rfl
  rw [indentBlock?, if_neg many, stands]
  simp only [headerEnd_self stands closed, behind, found, head]
  rw [indented, if_neg (by omega), bodyLines_append whole shallow]
  rfl

end Whole

end CodeDeck.Scan
