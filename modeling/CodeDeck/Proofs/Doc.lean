import CodeDeck.Doc
import CodeDeck.Proofs.Text.Lines

/-! Documentation is prose: whatever comment or string it was found in, the text is not empty, stands
on one line and has no blanks around it. What is found of a block comment is told by the text in front of the offset. -/

namespace CodeDeck.Doc

open CodeDeck.Text

theorem dropMarker_subset (line : List Char) : dropMarker line ⊆ line := by
  have start : trimStart line ⊆ line := (trimStart_isSuffix line).subset
  unfold dropMarker
  split
  · next c rest found =>
    rw [found] at start
    split
    · exact fun d member => start (List.mem_cons_of_mem _ (List.mem_cons_of_mem _ member))
    · exact fun d member => start (List.mem_cons_of_mem _ member)
  · exact List.nil_subset _
  · exact List.Subset.refl _

theorem prose_block? {source text : List Char} {pos : Int}
    (found : block? source pos = some text) : Prose text := by
  obtain ⟨inside, _, joined⟩ := Option.bind_eq_some_iff.1 found
  refine prose_joinProse joined fun line member => ?_
  obtain ⟨raw, inRaw, rfl⟩ := List.mem_map.1 member
  exact fun newline => newline_notMem_of_mem_lines inRaw (dropMarker_subset raw newline)

/-! The comment that a search finds is the first that goes on up to the end of the text. -/

def opener : List Char := ['/', '*', '*']

def closer : List Char := ['*', '/']

def prose? (inside : List Char) : Option (List Char) := joinProse ((lines inside).map dropMarker)

theorem closedAtEnd?_eq_some_iff {s inside : List Char} :
    closedAtEnd? s = some inside ↔ s = inside ++ closer ∧ ¬ closer <:+: inside := by
  induction s generalizing inside with
  | nil => simp [closedAtEnd?, closer]
  | cons c rest ih =>
    rw [closedAtEnd?]
    by_cases closes : c = '*' ∧ rest.head? = some '/'
    · obtain ⟨rfl, head⟩ := closes
      obtain ⟨more, rfl⟩ := List.head?_eq_some_iff.1 head
      rw [if_pos ⟨rfl, rfl⟩]
      match inside with
      | [] => simp [closer]
      | [d] =>
        split <;> simp [closer]
      | d :: e :: behind =>
        have closed : '*' :: '/' :: more = (d :: e :: behind) ++ closer → closer <:+: d :: e :: behind := by
          intro same
          obtain ⟨rfl, rfl, _⟩ : '*' = d ∧ '/' = e ∧ more = behind ++ closer := by simpa using same
          exact (List.prefix_append closer behind).isInfix
        refine iff_of_false ?_ (fun both => both.2 (closed both.1))
        split <;> simp
    · rw [if_neg closes]
      cases inside with
      | nil =>
        refine iff_of_false (by simp) ?_
        rintro ⟨same, _⟩
        obtain ⟨rfl, rfl⟩ := List.cons.inj same
        exact closes ⟨rfl, rfl⟩
      | cons d behind =>
        have apart : rest = behind ++ closer → c = d → ¬ closer <+: d :: behind := by
          rintro rfl rfl start
          obtain ⟨rfl, more⟩ := List.cons_prefix_cons.1 start
          obtain ⟨others, rfl⟩ := more
          exact closes ⟨rfl, rfl⟩
        rw [List.infix_cons_iff, not_or, List.cons_append, List.cons.injEq, Option.map_eq_some_iff]
        constructor
        · rintro ⟨found, later, same⟩
          obtain ⟨rfl, rfl⟩ := List.cons.inj same
          obtain ⟨whole, open_⟩ := ih.1 later
          exact ⟨⟨rfl, whole⟩, apart whole rfl, open_⟩
        · rintro ⟨⟨rfl, whole⟩, _, open_⟩
          exact ⟨behind, ih.2 ⟨whole, open_⟩, rfl⟩

/-- A documentation comment of the text `inside` stands behind `lead` and ends the text `s`. -/
def EndsWith (s lead inside : List Char) : Prop := s = lead ++ (opener ++ (inside ++ closer)) ∧ ¬ closer <:+: inside

theorem endsWith_cons_iff {c : Char} {rest lead inside : List Char} :
    EndsWith (c :: rest) (c :: lead) inside ↔ EndsWith rest lead inside := by
  simp only [EndsWith, List.cons_append, List.cons.injEq, true_and]

theorem blockComment?_eq_some_iff {s inside : List Char} :
    blockComment? s = some inside ↔
      ∃ lead, EndsWith s lead inside ∧ ∀ lead' inside', EndsWith s lead' inside' → lead.length ≤ lead'.length := by
  induction s generalizing inside with
  | nil => simp [blockComment?, EndsWith, opener]
  | cons c rest ih =>
    have here (inside : List Char) : EndsWith (c :: rest) [] inside ↔
        (if opener.isPrefixOf (c :: rest) then closedAtEnd? (rest.drop 2) else none) = some inside := by
      split
      · next starts =>
        obtain ⟨behind, same⟩ := List.isPrefixOf_iff_prefix.1 starts
        obtain ⟨rfl, rfl⟩ := List.cons.inj same
        rw [EndsWith, List.nil_append, ← same, List.append_cancel_left_eq]
        exact closedAtEnd?_eq_some_iff.symm
      · next starts =>
        refine iff_of_false ?_ (by simp)
        rintro ⟨same, _⟩
        exact starts (List.isPrefixOf_iff_prefix.2 ⟨_, same.symm⟩)
    have later {lead inside : List Char} (none : ∀ inside, ¬ EndsWith (c :: rest) [] inside)
        (ends : EndsWith (c :: rest) lead inside) : ∃ more, lead = c :: more ∧ EndsWith rest more inside := by
      cases lead with
      | nil => exact absurd ends (none inside)
      | cons d more =>
        obtain rfl : c = d := (List.cons.inj ends.1).1
        exact ⟨more, rfl, endsWith_cons_iff.1 ends⟩
    rw [blockComment?]
    split
    · next found first =>
      constructor
      · intro same
        exact ⟨[], (here inside).2 (first.trans same), fun _ _ _ => Nat.zero_le _⟩
      · rintro ⟨lead, ends, shortest⟩
        obtain rfl : lead = [] := List.length_eq_zero_iff.1 (Nat.le_zero.1 (shortest [] found ((here found).2 first)))
        exact first.symm.trans ((here inside).1 ends)
    · next absent =>
      have none (inside : List Char) : ¬ EndsWith (c :: rest) [] inside := by
        intro ends
        have found := absent.symm.trans ((here inside).1 ends)
        contradiction
      rw [ih]
      constructor
      · rintro ⟨lead, ends, shortest⟩
        refine ⟨c :: lead, endsWith_cons_iff.2 ends, fun lead' inside' ends' => ?_⟩
        obtain ⟨more, rfl, behind⟩ := later none ends'
        exact Nat.succ_le_succ (shortest more inside' behind)
      · rintro ⟨lead, ends, shortest⟩
        obtain ⟨more, rfl, behind⟩ := later none ends
        refine ⟨more, behind, fun lead' inside' ends' => ?_⟩
        exact Nat.le_of_succ_le_succ (shortest (c :: lead') inside' (endsWith_cons_iff.2 ends'))

theorem block?_append (before behind : List Char) :
    block? (before ++ behind) before.length =
      (blockComment? (trimEnd (before.drop (before.length - window)))).bind prose? := by
  have bounded : resolveOffset (before ++ behind).length before.length = before.length := by
    rw [resolveOffset_natCast, List.length_append]
    omega
  have start : ((before.length : Int) - window).toNat = before.length - window := by omega
  have looked : slice (before ++ behind) (before.length - window) before.length =
      before.drop (before.length - window) := by
    rw [slice, List.drop_append_of_le_length (by omega)]
    apply List.take_left'
    rw [List.length_drop]
  rw [block?, bounded, start, looked]
  rfl

theorem block?_eq_none {before : List Char} (open_ : (trimEnd before).getLast? ≠ some '/')
    (behind : List Char) : block? (before ++ behind) before.length = none := by
  rw [block?_append]
  cases found : blockComment? (trimEnd (before.drop (before.length - window))) with
  | none => rfl
  | some inside =>
    obtain ⟨lead, ⟨same, _⟩, _⟩ := blockComment?_eq_some_iff.1 found
    have last : (trimEnd (before.drop (before.length - window))).getLast? = some '/' := by
      rw [same]
      simp [closer]
    exact absurd (getLast?_trimEnd_of_suffix (List.drop_suffix ..) last) open_

theorem markedRun_subset {marker comment : List Char} {ls : List (List Char)}
    (member : comment ∈ markedRun marker ls) : ∃ line ∈ ls, comment ⊆ line := by
  induction ls with
  | nil => simp [markedRun] at member
  | cons line above ih =>
    simp only [markedRun] at member
    split at member
    · rcases List.mem_cons.1 member with rfl | later
      · refine ⟨line, List.mem_cons_self, fun c inside => ?_⟩
        exact (trim_isInfix line).subset (List.mem_of_mem_drop inside)
      · obtain ⟨other, inside, part⟩ := ih later
        exact ⟨other, List.mem_cons_of_mem _ inside, part⟩
    · simp at member

theorem prose_line? {source marker text : List Char} {pos : Int}
    (found : line? source pos marker = some text) : Prose text := by
  unfold line? at found
  refine prose_joinProse found fun comment member => ?_
  obtain ⟨line, inRun, part⟩ := markedRun_subset (List.mem_reverse.1 member)
  rw [List.mem_reverse] at inRun
  have inLines : line ∈ lines (slice source
      (lineStart (source.take (resolveOffset source.length pos)) - window)
      (lineStart (source.take (resolveOffset source.length pos)))) := by
    split at inRun
    · exact List.dropLast_subset _ (List.mem_of_mem_drop inRun)
    · exact List.dropLast_subset _ inRun
  exact fun newline => newline_notMem_of_mem_lines inLines (part newline)

theorem prose_docstring? {source text : List Char} {pos : Int}
    (found : docstring? source pos = some text) : Prose text := by
  obtain ⟨inside, _, joined⟩ := Option.bind_eq_some_iff.1 found
  exact prose_joinProse joined fun line member => newline_notMem_of_mem_lines member

end CodeDeck.Doc
