import CodeDeck.Text.Lines
import Mathlib.Data.List.Basic
import Mathlib.Data.List.TakeWhile

/-! Trimmed text, lines and prose. Adjacent lines, joined again, are a part of the text that they
come from, and prose is a single trimmed line. -/

namespace CodeDeck.Text

-- What holds of the characters of a text is decided over the text, and not over all characters there are.
instance (priority := high) decidableForallMem (p : Char → Prop) [DecidablePred p] (s : List Char) :
    Decidable (∀ c ∈ s, p c) :=
  List.decidableBAll p s

structure Trimmed (s : List Char) : Prop where
  first : ∀ c, s.head? = some c → isBlank c = false
  last : ∀ c, s.getLast? = some c → isBlank c = false

theorem head_trimStart {s : List Char} {c : Char} (first : (trimStart s).head? = some c) :
    isBlank c = false := by
  have kept := List.head?_dropWhile_not isBlank s
  unfold trimStart at first
  rw [first] at kept
  exact kept

theorem trimStart_of_inked {s : List Char} (first : ∀ c, s.head? = some c → isBlank c = false) : trimStart s = s := by
  cases s with
  | nil => rfl
  | cons c rest => simp [trimStart, first c rfl]

theorem last_trimEnd {s : List Char} {c : Char} (last : (trimEnd s).getLast? = some c) :
    isBlank c = false := by
  unfold trimEnd at last
  rw [List.getLast?_reverse] at last
  exact head_trimStart last

theorem getLast?_trimEnd (s : List Char) : (trimEnd s).getLast? = s.reverse.find? (fun c => !isBlank c) := by
  rw [trimEnd, List.getLast?_reverse, List.find?_not_eq_head?_dropWhile]

theorem getLast?_trimEnd_of_suffix {s t : List Char} {c : Char} (part : t <:+ s)
    (last : (trimEnd t).getLast? = some c) : (trimEnd s).getLast? = some c := by
  rw [getLast?_trimEnd] at last ⊢
  exact (List.reverse_prefix.2 part).find?_eq_some last

theorem getLast?_trimEnd_newline {s : List Char} {c : Char} (last : s.getLast? = some c)
    (inked : isBlank c = false) : (trimEnd (s ++ ['\n'])).getLast? = some c := by
  have newline : isBlank '\n' = true := by decide
  obtain ⟨front, rfl⟩ := List.getLast?_eq_some_iff.1 last
  simp [getLast?_trimEnd, newline, inked]

theorem trimmed_trim (s : List Char) : Trimmed (trim s) where
  first := by
    intro c first
    have part : trim s <+: trimStart s := trimEnd_isPrefix ..
    obtain ⟨behind, whole⟩ := part
    have same : (trimStart s).head? = some c := by
      rw [← whole, List.head?_append, first]
      rfl
    exact head_trimStart same
  last := fun _ last => last_trimEnd last

theorem trim_isInfix (s : List Char) : trim s <:+: s :=
  (trimEnd_isPrefix _).isInfix.trans (trimStart_isSuffix s).isInfix

theorem trim_isPrefix {s : List Char} (inked : ∀ c, s.head? = some c → isBlank c = false) : trim s <+: s := by
  rw [trim, trimStart_of_inked inked]
  exact trimEnd_isPrefix s

theorem countLines_trim_le (s : List Char) : countLines (trim s) ≤ countLines s :=
  Nat.succ_le_succ ((trim_isInfix s).sublist.count_le '\n')

theorem trim_gap {gap : List Char} (blank : ∀ c ∈ gap, isBlank c = true) (s : List Char) :
    trim (gap ++ s) = trim s := by
  rw [trim, trimStart, List.dropWhile_append_of_pos blank]
  rfl

theorem trimEnd_gap {gap : List Char} (blank : ∀ c ∈ gap, isBlank c = true) (s : List Char) :
    trimEnd (s ++ gap) = trimEnd s := by
  rw [trimEnd, List.reverse_append, List.dropWhile_append_of_pos (fun c member => blank c (List.mem_reverse.1 member))]
  rfl

theorem trim_eq_nil_iff (s : List Char) : trim s = [] ↔ allBlank s = true := by
  have start : trimStart s = [] ↔ allBlank s = true := by
    rw [trimStart, List.dropWhile_eq_nil_iff, allBlank, List.all_eq_true]
  have keeps : trim s = [] ↔ trimStart s = [] := by
    constructor
    · intro empty
      cases rest : trimStart s with
      | nil => rfl
      | cons c behind =>
        have nonblank : isBlank c = false := head_trimStart (s := s) (by rw [rest]; rfl)
        rw [trim, rest, trimEnd, List.reverse_eq_nil_iff, List.dropWhile_eq_nil_iff] at empty
        have blank := empty c (by simp)
        rw [nonblank] at blank
        contradiction
    · intro empty
      rw [trim, empty]
      rfl
  exact keeps.trans start

theorem prefix_or_mem {w t rest : List Char} {c : Char} (start : w <+: t ++ c :: rest) : w <+: t ∨ c ∈ w := by
  rcases List.prefix_or_prefix_of_prefix start (List.prefix_append t (c :: rest)) with within | beyond
  · exact .inl within
  · obtain ⟨more, rfl⟩ := beyond
    cases more with
    | nil => exact .inl (by simp)
    | cons d others =>
      have same : d = c := (List.cons_prefix_cons.1 ((List.prefix_append_right_inj t).1 start)).1
      exact .inr (by simp [same])

theorem append_cons_inj {P : Char → Prop} {a b r t : List Char} {x y : Char} (free : ∀ c ∈ a, ¬ P c)
    (free' : ∀ c ∈ b, ¬ P c) (first : P x) (first' : P y) (same : a ++ x :: r = b ++ y :: t) :
    a = b ∧ x = y ∧ r = t := by
  induction a generalizing b with
  | nil =>
    cases b with
    | nil => exact ⟨rfl, List.cons.inj same⟩
    | cons d others => exact absurd ((List.cons.inj same).1 ▸ first) (free' d List.mem_cons_self)
  | cons c more ih =>
    cases b with
    | nil => exact absurd ((List.cons.inj same).1 ▸ first') (free c List.mem_cons_self)
    | cons d others =>
      obtain ⟨rfl, behind⟩ := List.cons.inj same
      obtain ⟨rfl, rest⟩ := ih (fun e member => free e (List.mem_cons_of_mem _ member))
        (fun e member => free' e (List.mem_cons_of_mem _ member)) behind
      exact ⟨rfl, rest⟩

theorem append_separator_inj {separator : Char} {a b r t : List Char} (free : separator ∉ a) (free' : separator ∉ b)
    (same : a ++ separator :: r = b ++ separator :: t) : a = b ∧ r = t := by
  obtain ⟨front, -, rest⟩ := append_cons_inj (List.forall_mem_ne'.2 free) (List.forall_mem_ne'.2 free') rfl rfl same
  exact ⟨front, rest⟩

theorem splitOn_eq_splitOn (separator : Char) (s : List Char) :
    splitOn separator s = s.splitOn separator := by
  induction s with
  | nil => rfl
  | cons c rest ih =>
    rw [splitOn, List.splitOn_cons_eq_if_modifyHead, ih]
    by_cases same : c = separator
    · simp [same]
    · cases pieces : rest.splitOn separator with
      | nil => exact absurd pieces (List.splitOn_ne_nil _ _)
      | cons first others => simp [same]

theorem splitOn_of_notMem {separator : Char} {s : List Char} (free : separator ∉ s) : splitOn separator s = [s] := by
  induction s with
  | nil => rfl
  | cons c rest ih =>
    rw [List.mem_cons, not_or] at free
    rw [splitOn, if_neg (Ne.symm free.1), ih free.2]

theorem splitOn_append (separator : Char) (front back : List Char) :
    splitOn separator (front ++ separator :: back) = splitOn separator front ++ splitOn separator back := by
  simp only [splitOn_eq_splitOn, List.splitOn]
  exact List.splitOnP_append_cons _ _ (beq_self_eq_true separator)

theorem intercalate_splitOn (separator : Char) (s : List Char) :
    List.intercalate [separator] (splitOn separator s) = s := by
  rw [splitOn_eq_splitOn]
  exact List.intercalate_splitOn separator

theorem splitOn_intercalate {separator : Char} {pieces : List (List Char)} (some : pieces ≠ [])
    (free : ∀ piece ∈ pieces, separator ∉ piece) :
    splitOn separator (List.intercalate [separator] pieces) = pieces := by
  rw [splitOn_eq_splitOn]
  exact List.splitOn_intercalate separator free some

theorem joinLines_lines (s : List Char) : joinLines (lines s) = s := intercalate_splitOn '\n' s

theorem notMem_of_mem_splitOn {separator : Char} {s piece : List Char}
    (member : piece ∈ splitOn separator s) : separator ∉ piece := by
  induction s generalizing piece with
  | nil =>
    rw [splitOn, List.mem_singleton] at member
    simp [member]
  | cons c rest ih =>
    by_cases same : c = separator
    · simp only [splitOn, same, if_true, List.mem_cons] at member
      rcases member with rfl | later
      · exact List.not_mem_nil
      · exact ih later
    · cases pieces : splitOn separator rest with
      | nil => exact absurd pieces (splitOn_ne_nil _ _)
      | cons first others =>
        simp only [splitOn, same, if_false, pieces, List.mem_cons] at member
        rcases member with rfl | later
        · have inside : first ∈ splitOn separator rest := by simp [pieces]
          simp [Ne.symm same, ih inside]
        · exact ih (by simp [pieces, later])

theorem mem_of_mem_splitOn {separator c : Char} {s piece : List Char}
    (member : piece ∈ splitOn separator s) (inside : c ∈ piece) : c ∈ s := by
  induction s generalizing piece with
  | nil =>
    rw [splitOn, List.mem_singleton] at member
    exact member ▸ inside
  | cons d rest ih =>
    by_cases same : d = separator
    · simp only [splitOn, same, if_true, List.mem_cons] at member
      rcases member with rfl | later
      · exact absurd inside List.not_mem_nil
      · exact List.mem_cons_of_mem _ (ih later inside)
    · cases pieces : splitOn separator rest with
      | nil => exact absurd pieces (splitOn_ne_nil _ _)
      | cons first others =>
        simp only [splitOn, same, if_false, pieces, List.mem_cons] at member
        rcases member with rfl | later
        · rcases List.mem_cons.1 inside with rfl | behind
          · exact List.mem_cons_self
          · exact List.mem_cons_of_mem _ (ih (by simp [pieces]) behind)
        · exact List.mem_cons_of_mem _ (ih (by simp [pieces, later]) inside)

theorem newline_notMem_of_mem_lines {s line : List Char} (member : line ∈ lines s) :
    '\n' ∉ line :=
  notMem_of_mem_splitOn member

theorem joinLines_append {above below : List (List Char)} (before : above ≠ [])
    (behind : below ≠ []) :
    joinLines (above ++ below) = joinLines above ++ '\n' :: joinLines below := by
  induction above with
  | nil => exact absurd rfl before
  | cons line rest ih =>
    by_cases last : rest = []
    · subst last
      simp [joinLines, List.intercalate_cons_of_ne_nil behind]
    · have more : rest ++ below ≠ [] := by simp [last]
      simp only [joinLines] at ih ⊢
      rw [List.cons_append, List.intercalate_cons_of_ne_nil more, ih last,
        List.intercalate_cons_of_ne_nil last]
      simp

theorem lines_joinLines {ls : List (List Char)} (some : ls ≠ []) (single : ∀ line ∈ ls, '\n' ∉ line) :
    lines (joinLines ls) = ls := splitOn_intercalate some single

def linesAbove (ls : List (List Char)) : List Char := ls.flatMap (· ++ ['\n'])

def linesBelow (ls : List (List Char)) : List Char := ls.flatMap ('\n' :: ·)

theorem joinLines_cons (line : List Char) (below : List (List Char)) :
    joinLines (line :: below) = line ++ linesBelow below := by
  induction below generalizing line with
  | nil => simp [joinLines, linesBelow]
  | cons next more ih =>
    have step : joinLines (line :: next :: more) = line ++ '\n' :: joinLines (next :: more) := by
      simp [joinLines, List.intercalate_cons_cons]
    rw [step, ih]
    rfl

theorem joinLines_around (above : List (List Char)) (line : List Char) (below : List (List Char)) :
    joinLines (above ++ line :: below) = linesAbove above ++ (line ++ linesBelow below) := by
  induction above with
  | nil => exact joinLines_cons line below
  | cons first rest ih =>
    have behind : rest ++ line :: below ≠ [] := by simp
    calc
      _ = first ++ '\n' :: joinLines (rest ++ line :: below) := by
        simp [joinLines, List.intercalate_cons_of_ne_nil behind]
      _ = _ := by simp [ih, linesAbove]

theorem linesAbove_append (above below : List (List Char)) :
    linesAbove (above ++ below) = linesAbove above ++ linesAbove below := List.flatMap_append

theorem linesAbove_eq {ls : List (List Char)} (some : ls ≠ []) : linesAbove ls = joinLines ls ++ ['\n'] := by
  have last := joinLines_around ls [] []
  rw [joinLines_append some (List.cons_ne_nil _ _), joinLines_cons] at last
  simpa [linesBelow] using last.symm

theorem joinLines_middle (above : List (List Char)) {part : List (List Char)} (some : part ≠ [])
    (below : List (List Char)) :
    joinLines (above ++ (part ++ below)) = linesAbove above ++ (joinLines part ++ linesBelow below) := by
  obtain ⟨line, more, rfl⟩ := List.exists_cons_of_ne_nil some
  rw [List.cons_append, joinLines_around, joinLines_cons, linesBelow, linesBelow, linesBelow, List.flatMap_append,
    List.append_assoc]

/-- The first part of a text ends somewhere on a line. The lines in front of it are whole, and the second part goes on
with the line. -/
theorem exists_lines_split (front back : List Char) :
    ∃ above start rest below, lines (front ++ back) = above ++ (start ++ rest) :: below ∧
      front = linesAbove above ++ start ∧ back = rest ++ linesBelow below ∧ above.length = front.count '\n' := by
  obtain ⟨above, start, first⟩ := (List.eq_nil_or_concat' (lines front)).resolve_left (splitOn_ne_nil '\n' front)
  obtain ⟨rest, below, second⟩ := List.exists_cons_of_ne_nil (splitOn_ne_nil '\n' back)
  have whole : front = linesAbove above ++ start := by
    rw [← joinLines_lines front, first, joinLines_around, linesBelow, List.flatMap_nil, List.append_nil]
  have whole' : back = rest ++ linesBelow below := by
    rw [← joinLines_cons, ← second]
    exact (joinLines_lines back).symm
  have single : ∀ line ∈ above ++ (start ++ rest) :: below, '\n' ∉ line := by
    have inFront : ∀ line ∈ above ++ [start], '\n' ∉ line :=
      first ▸ fun line member => newline_notMem_of_mem_lines member
    have inBack : ∀ line ∈ rest :: below, '\n' ∉ line :=
      second ▸ fun line member => newline_notMem_of_mem_lines member
    rw [List.forall_mem_append, List.forall_mem_singleton] at inFront
    rw [List.forall_mem_cons] at inBack
    rw [List.forall_mem_append, List.forall_mem_cons, List.mem_append, not_or]
    exact ⟨inFront.1, ⟨inFront.2, inBack.1⟩, inBack.2⟩
  refine ⟨above, start, rest, below, ?_, whole, whole', ?_⟩
  · rw [← lines_joinLines (by simp) single, joinLines_around, whole, whole']
    simp only [List.append_assoc]
  · have length := length_lines front
    rw [first, countLines, List.length_append] at length
    exact Nat.succ.inj length

theorem count_linesAbove {ls : List (List Char)} (single : ∀ line ∈ ls, '\n' ∉ line) :
    (linesAbove ls).count '\n' = ls.length := by
  induction ls with
  | nil => rfl
  | cons line rest ih =>
    obtain ⟨first, others⟩ := List.forall_mem_cons.1 single
    have here : (line ++ ['\n']).count '\n' = 1 := by
      rw [List.count_append, List.count_eq_zero_of_not_mem first, List.count_singleton_self, Nat.zero_add]
    calc
      _ = (line ++ ['\n']).count '\n' + (linesAbove rest).count '\n' := List.count_append
      _ = 1 + rest.length := by rw [here, ih others]
      _ = _ := Nat.add_comm ..

section

variable {ls ms : List (List Char)} {s front : List Char}

theorem lines_linesAbove (single : ∀ line ∈ ls, '\n' ∉ line) : lines (linesAbove ls) = ls ++ [[]] := by
  have whole : linesAbove ls = joinLines (ls ++ [[]]) := by
    rw [joinLines_around, linesBelow, List.flatMap_nil]
    simp
  rw [whole]
  apply lines_joinLines (by simp)
  rw [List.forall_mem_append]
  exact ⟨single, List.forall_mem_singleton.2 List.not_mem_nil⟩

theorem linesAbove_inj (single : ∀ line ∈ ls, '\n' ∉ line) (single' : ∀ line ∈ ms, '\n' ∉ line)
    (same : linesAbove ls = linesAbove ms) : ls = ms := by
  have whole := congrArg lines same
  rw [lines_linesAbove single, lines_linesAbove single'] at whole
  exact List.append_cancel_right whole

theorem exists_linesAbove (ends : ∀ c, s.getLast? = some c → c = '\n') :
    ∃ ls, (∀ line ∈ ls, '\n' ∉ line) ∧ s = linesAbove ls := by
  cases last : s.getLast? with
  | none =>
    rw [List.getLast?_eq_none_iff] at last
    exact ⟨[], List.forall_mem_nil _, last⟩
  | some c =>
    obtain rfl := ends c last
    obtain ⟨front, rfl⟩ := List.getLast?_eq_some_iff.1 last
    refine ⟨lines front, fun line member => newline_notMem_of_mem_lines member, ?_⟩
    have some : lines front ≠ [] := splitOn_ne_nil '\n' front
    rw [linesAbove_eq some, joinLines_lines]

theorem getLast?_linesAbove {c : Char} (last : (linesAbove ls).getLast? = some c) : c = '\n' := by
  rcases List.eq_nil_or_concat ls with rfl | ⟨more, line, rfl⟩
  · contradiction
  · rw [List.concat_eq_append, linesAbove_append] at last
    simpa [linesAbove] using last.symm

theorem linesAbove_cons (line : List Char) (ls : List (List Char)) :
    linesAbove (line :: ls) = line ++ '\n' :: linesAbove ls := by
  rw [linesAbove, List.flatMap_cons, List.append_assoc]
  rfl

theorem length_linesAbove_append (ls ms : List (List Char)) :
    (linesAbove (ls ++ ms)).length = (linesAbove ls).length + (linesAbove ms).length := by
  rw [linesAbove_append, List.length_append]

theorem length_linesAbove_cons (line : List Char) (ls : List (List Char)) :
    (linesAbove (line :: ls)).length = line.length + 1 + (linesAbove ls).length := by
  rw [linesAbove_cons, List.length_append, List.length_cons]
  omega

theorem eq_nil_of_length_linesAbove (none : (linesAbove ls).length = 0) : ls = [] := by
  cases ls with
  | nil => rfl
  | cons line more =>
    rw [length_linesAbove_cons] at none
    omega

theorem length_le_of_linesAbove {line back : List Char} (oneLine : '\n' ∉ back)
    (same : linesAbove ls ++ line = front ++ back) : back.length ≤ line.length := by
  rcases List.append_eq_append_iff.1 same with ⟨more, rfl, rfl⟩ | ⟨more, whole, rfl⟩
  · rw [List.length_append]
    omega
  · rcases List.eq_nil_or_concat more with rfl | ⟨start, c, rfl⟩
    · exact Nat.le_refl _
    · rw [List.concat_eq_append] at whole oneLine
      have last : (linesAbove ls).getLast? = some c := by
        rw [whole, ← List.append_assoc, List.getLast?_concat]
      rw [getLast?_linesAbove last] at oneLine
      exact absurd (by simp) oneLine

theorem suffix_of_linesAbove (single : ∀ line ∈ ls, '\n' ∉ line) (single' : ∀ line ∈ ms, '\n' ∉ line)
    (whole : linesAbove ms = front ++ linesAbove ls) (ends : ∀ c, front.getLast? = some c → c = '\n') :
    ∃ earlier, ms = earlier ++ ls ∧ front = linesAbove earlier := by
  obtain ⟨earlier, plain, rfl⟩ := exists_linesAbove ends
  rw [← linesAbove_append] at whole
  refine ⟨earlier, linesAbove_inj single' ?_ whole, rfl⟩
  rw [List.forall_mem_append]
  exact ⟨plain, single⟩

end

theorem trimStart_append {front : List Char} (inked : allBlank front = false) (back : List Char) :
    trimStart (front ++ back) = trimStart front ++ back := by
  have stops : ¬ (front.dropWhile isBlank).isEmpty = true := by
    rw [List.isEmpty_iff, List.dropWhile_eq_nil_iff]
    intro blank
    have all : allBlank front = true := List.all_eq_true.2 blank
    rw [inked] at all
    contradiction
  rw [trimStart, List.dropWhile_append, if_neg stops, trimStart]

theorem head?_trimStart_append {front : List Char} (inked : allBlank front = false) (back : List Char) :
    (trimStart (front ++ back)).head? = (trimStart front).head? := by
  rw [trimStart_append inked]
  cases first : trimStart front with
  | nil =>
    have blank := (trim_eq_nil_iff front).1 (by rw [trim, first]; rfl)
    rw [inked] at blank
    contradiction
  | cons c rest => rfl

theorem trimEnd_append (front : List Char) {back : List Char} (inked : allBlank back = false) :
    trimEnd (front ++ back) = front ++ trimEnd back := by
  have stops : ¬ (back.reverse.dropWhile isBlank).isEmpty = true := by
    rw [List.isEmpty_iff, List.dropWhile_eq_nil_iff]
    intro blank
    have all : allBlank back = true := List.all_eq_true.2 fun c member => blank c (List.mem_reverse.2 member)
    rw [inked] at all
    contradiction
  rw [trimEnd, List.reverse_append, List.dropWhile_append, if_neg stops, List.reverse_append, List.reverse_reverse,
    trimEnd]

theorem prefix_trimEnd {front s : List Char} {c : Char} (start : front <+: s) (last : front.getLast? = some c)
    (inked : isBlank c = false) : front <+: trimEnd s := by
  obtain ⟨lead, rfl⟩ := List.getLast?_eq_some_iff.1 last
  obtain ⟨rest, rfl⟩ := start
  have visible : allBlank (c :: rest) = false := by simp [allBlank, inked]
  have kept : [c] <+: trimEnd (c :: rest) := by
    have first : trimEnd (c :: rest) ≠ [] := by
      intro empty
      have all := (trim_eq_nil_iff (c :: rest)).1
      rw [trim, trimStart_of_inked (by simpa using inked)] at all
      rw [all empty] at visible
      contradiction
    obtain ⟨d, more, same⟩ := List.exists_cons_of_ne_nil first
    have part := trimEnd_isPrefix (c :: rest)
    rw [same] at part ⊢
    rw [(List.cons_prefix_cons.1 part).1]
    exact List.cons_prefix_cons.2 ⟨rfl, List.nil_prefix⟩
  rw [List.append_assoc, List.singleton_append, trimEnd_append lead visible]
  exact (List.prefix_append_right_inj lead).2 kept

theorem joinLines_concat (front : List (List Char)) {part : List (List Char)} (some : part ≠ []) :
    joinLines (front ++ [joinLines part]) = joinLines (front ++ part) := by
  obtain ⟨line, below, rfl⟩ := List.exists_cons_of_ne_nil some
  rw [joinLines_around, joinLines_around, joinLines_cons]
  simp [linesBelow]

theorem countLines_trimEnd_joinLines {front : List (List Char)} {last : List Char}
    (single : ∀ line ∈ front ++ [last], '\n' ∉ line) (inked : allBlank last = false) :
    countLines (trimEnd (joinLines (front ++ [last]))) = (front ++ [last]).length := by
  have above : (linesAbove front).count '\n' = front.length :=
    count_linesAbove fun line member => single line (List.mem_append_left _ member)
  have none : (trimEnd last).count '\n' = 0 := by
    apply List.count_eq_zero_of_not_mem
    intro member
    exact single last (by simp) ((trimEnd_isPrefix last).subset member)
  have whole : joinLines (front ++ [last]) = linesAbove front ++ last := by
    rw [joinLines_around, linesBelow, List.flatMap_nil, List.append_nil]
  rw [countLines, whole, trimEnd_append _ inked, List.count_append, above, none, List.length_append]
  rfl

theorem joinLines_isPrefix {part ls : List (List Char)} (start : part <+: ls) :
    joinLines part <+: joinLines ls := by
  obtain ⟨below, rfl⟩ := start
  by_cases empty : part = []
  · subst empty
    exact List.nil_prefix
  · by_cases whole : below = []
    · subst whole
      simp
    · rw [joinLines_append empty whole]
      exact List.prefix_append ..

theorem joinLines_isSuffix {part ls : List (List Char)} (final : part <:+ ls) :
    joinLines part <:+ joinLines ls := by
  obtain ⟨above, rfl⟩ := final
  by_cases empty : part = []
  · subst empty
    exact List.nil_suffix
  · by_cases whole : above = []
    · subst whole
      simp
    · rw [joinLines_append whole empty]
      exact (List.suffix_cons ..).trans (List.suffix_append ..)

theorem joinLines_isInfix {part ls : List (List Char)} (inside : part <:+: ls) :
    joinLines part <:+: joinLines ls := by
  obtain ⟨above, below, rfl⟩ := inside
  have start : joinLines (above ++ part) <+: joinLines (above ++ part ++ below) :=
    joinLines_isPrefix (List.prefix_append ..)
  have final : joinLines part <:+ joinLines (above ++ part) :=
    joinLines_isSuffix (List.suffix_append ..)
  exact final.isInfix.trans start.isInfix

structure Prose (t : List Char) : Prop where
  nonempty : t ≠ []
  oneLine : '\n' ∉ t
  trimmed : Trimmed t

theorem Prose.append {t u : List Char} (first : Prose t) (second : Prose u) :
    Prose (t ++ [' '] ++ u) where
  nonempty := by simp
  oneLine := by
    have apart : '\n' ≠ ' ' := by decide
    simp [first.oneLine, second.oneLine, apart]
  trimmed :=
    { first := by
        intro c start
        rw [List.append_assoc, List.head?_append_of_ne_nil _ first.nonempty] at start
        exact first.trimmed.first c start
      last := by
        intro c stop
        rw [List.getLast?_append_of_ne_nil _ second.nonempty] at stop
        exact second.trimmed.last c stop }

theorem prose_intercalate {pieces : List (List Char)} (some : pieces ≠ [])
    (prose : ∀ piece ∈ pieces, Prose piece) : Prose (List.intercalate [' '] pieces) := by
  induction pieces with
  | nil => exact absurd rfl some
  | cons piece rest ih =>
    have first : Prose piece := prose piece List.mem_cons_self
    have others : ∀ other ∈ rest, Prose other :=
      fun other member => prose other (List.mem_cons_of_mem _ member)
    by_cases last : rest = []
    · rw [last, List.intercalate_singleton]
      exact first
    · rw [List.intercalate_cons_of_ne_nil last]
      exact first.append (ih last others)

theorem prose_joinProse {ls : List (List Char)} {t : List Char} (found : joinProse ls = some t)
    (oneLine : ∀ line ∈ ls, '\n' ∉ line) : Prose t := by
  have piece : ∀ p ∈ (ls.map trim).filter (· ≠ []), Prose p := by
    intro p member
    rw [List.mem_filter, List.mem_map] at member
    obtain ⟨⟨line, inside, rfl⟩, nonempty⟩ := member
    exact {
      nonempty := of_decide_eq_true nonempty
      oneLine := fun newline => oneLine line inside ((trim_isInfix line).subset newline)
      trimmed := trimmed_trim line }
  unfold joinProse at found
  split at found
  · contradiction
  · next kept nonempty =>
    injection found with same
    rw [← same]
    exact prose_intercalate nonempty piece

/-! What is no blank is counted in prose as in the lines that it comes from. -/

section Count

variable {c : Char}

theorem count_trimStart (inked : isBlank c = false) (s : List Char) : (trimStart s).count c = s.count c := by
  have gap : (s.takeWhile isBlank).count c = 0 := by
    rw [List.count_eq_zero]
    intro member
    rw [List.mem_takeWhile_imp member] at inked
    contradiction
  conv_rhs => rw [← List.takeWhile_append_dropWhile (p := isBlank) (l := s), List.count_append, gap, Nat.zero_add]
  rfl

theorem count_trim (inked : isBlank c = false) (s : List Char) : (trim s).count c = s.count c := by
  have back := count_trimStart inked (trimStart s).reverse
  rw [List.count_reverse] at back
  rw [trim, trimEnd, List.count_reverse]
  exact back.trans (count_trimStart inked s)

theorem count_flatten_map {f : List Char → List Char} (same : ∀ line, (f line).count c = line.count c)
    (ls : List (List Char)) : (ls.map f).flatten.count c = ls.flatten.count c := by
  induction ls with
  | nil => rfl
  | cons line rest ih =>
    rw [List.map_cons, List.flatten_cons, List.flatten_cons, List.count_append, List.count_append, same, ih]

theorem count_intercalate {separator : Char} (other : c ≠ separator) (ls : List (List Char)) :
    (List.intercalate [separator] ls).count c = ls.flatten.count c := by
  induction ls with
  | nil => rfl
  | cons line rest ih =>
    by_cases last : rest = []
    · simp [last]
    · rw [List.intercalate_cons_of_ne_nil last, List.count_append, List.count_append, ih,
        List.count_singleton, if_neg (by simpa using Ne.symm other), List.flatten_cons, List.count_append, Nat.add_zero]

theorem count_flatten_lines (other : c ≠ '\n') (s : List Char) : (lines s).flatten.count c = s.count c := by
  rw [← count_intercalate other]
  exact congrArg (List.count c) (joinLines_lines s)

theorem count_joinProse (inked : isBlank c = false) (ls : List (List Char)) :
    ((joinProse ls).getD []).count c = ls.flatten.count c := by
  have apart : c ≠ ' ' := by
    rintro rfl
    exact absurd inked (by decide)
  rw [← count_flatten_map (count_trim inked), ← List.flatten_filter_ne_nil, ← count_intercalate apart, joinProse]
  split
  · next none => rw [none]; rfl
  · rfl

end Count

theorem newline_infix_of_mem_lines {s line : List Char} (member : line ∈ (lines s).tail) : '\n' :: line <:+: s := by
  obtain ⟨first, below, same⟩ := List.exists_cons_of_ne_nil (splitOn_ne_nil '\n' s)
  have whole : s = first ++ linesBelow below := by
    rw [← joinLines_cons, ← same]
    exact (joinLines_lines s).symm
  rw [lines, same, List.tail_cons] at member
  obtain ⟨above, rest, rfl⟩ := List.append_of_mem member
  refine ⟨first ++ linesBelow above, linesBelow rest, ?_⟩
  rw [whole, linesBelow, linesBelow, linesBelow, List.flatMap_append, List.flatMap_cons]
  simp only [List.append_assoc, List.cons_append]

end CodeDeck.Text
