import CodeDeck.Proofs.Doc
import Mathlib.Data.List.DropRight

/-! Comment lines above a declaration. The documentation is the text of the run of them right above it, as far as the lines
begin in the window; a line that begins exactly where the window does is taken for one that the window cuts. -/

namespace CodeDeck.Doc

open CodeDeck.Text

/-- The lines above the one in which an offset stands. -/
structure IsAbove (source : List Char) (pos : Int) (above : List (List Char)) : Prop where
  single : ∀ line ∈ above, '\n' ∉ line
  stands : ∃ line rest, source = linesAbove above ++ (line ++ rest) ∧ '\n' ∉ line ∧
    resolveOffset source.length pos = (linesAbove above).length + line.length

/-- The lines `run`, all with a comment, end what stands above. They are all there is, or the line above them has no comment
or begins outside the window. -/
structure IsRun (marker : List Char) (above run : List (List Char)) : Prop where
  marked : ∀ line ∈ run, marker <+: trim line
  near : (linesAbove run).length ≤ window
  stops : run = above ∨ ∃ earlier line, above = earlier ++ line :: run ∧
    (¬ marker <+: trim line ∨ window < (linesAbove (line :: run)).length)

def commentIn (marker line : List Char) : List Char := (trim line).drop marker.length

/-- The first line of the run begins exactly at the edge of the window, with other text above. -/
def AtEdge (above run : List (List Char)) : Prop := (linesAbove run).length = window ∧ run ≠ above

instance (above run : List (List Char)) : Decidable (AtEdge above run) := inferInstanceAs (Decidable (_ ∧ _))

variable {source marker : List Char} {pos : Int} {above run : List (List Char)}

/-! The lines that the search sees. -/

def isMarked (marker line : List Char) : Bool := marker.isPrefixOf (trim line)

theorem isMarked_iff {line : List Char} : isMarked marker line = true ↔ marker <+: trim line := List.isPrefixOf_iff_prefix

theorem markedRun_eq (ls : List (List Char)) :
    markedRun marker ls = (ls.takeWhile (isMarked marker)).map (commentIn marker) := by
  induction ls with
  | nil => rfl
  | cons line above ih =>
    rw [markedRun, ih]
    by_cases starts : isMarked marker line = true
    · rw [List.takeWhile_cons_of_pos starts]
      exact if_pos starts
    · rw [List.takeWhile_cons_of_neg starts]
      exact if_neg starts

theorem lineStart_append (above : List (List Char)) {line : List Char} (oneLine : '\n' ∉ line) :
    lineStart (linesAbove above ++ line) = (linesAbove above).length := by
  have inside : ∀ c ∈ line.reverse, (c != '\n') = true := by
    intro c member
    have other : c ≠ '\n' := by
      rintro rfl
      exact oneLine (List.mem_reverse.1 member)
    simpa using other
  have stops : (linesAbove above).reverse.dropWhile (· != '\n') = (linesAbove above).reverse := by
    cases back : (linesAbove above).reverse with
    | nil => rfl
    | cons c more =>
      have last : (linesAbove above).getLast? = some c := by rw [← List.head?_reverse, back, List.head?_cons]
      exact List.dropWhile_cons_of_neg (by simp [getLast?_linesAbove last])
  rw [lineStart, List.reverse_append, List.dropWhile_append_of_pos inside, stops, List.length_reverse]

/-- The lines taken to be whole in the window. -/
def seen (above : List (List Char)) : List (List Char) :=
  let edge := (linesAbove above).length - window
  let ls := (lines ((linesAbove above).drop edge)).dropLast
  if 0 < edge then ls.drop 1 else ls

theorem line?_seen (stands : IsAbove source pos above) :
    line? source pos marker = joinProse (((seen above).rtakeWhile (isMarked marker)).map (commentIn marker)) := by
  obtain ⟨line, rest, rfl, oneLine, resolved⟩ := stands.stands
  have front : (linesAbove above ++ (line ++ rest)).take ((linesAbove above).length + line.length) =
      linesAbove above ++ line := by
    rw [← List.append_assoc]
    exact List.take_left' List.length_append
  have window_ : slice (linesAbove above ++ (line ++ rest)) ((linesAbove above).length - window) (linesAbove above).length =
      (linesAbove above).drop ((linesAbove above).length - window) := by
    rw [slice, List.drop_append_of_le_length (Nat.sub_le ..)]
    apply List.take_left'
    rw [List.length_drop]
  rw [line?, resolved, front, lineStart_append above oneLine]
  simp only [window_, markedRun_eq]
  rw [List.rtakeWhile, List.map_reverse]
  rfl

theorem seen_of_le (single : ∀ line ∈ above, '\n' ∉ line) (near : (linesAbove above).length ≤ window) :
    seen above = above := by
  have whole : (linesAbove above).length - window = 0 := Nat.sub_eq_zero_of_le near
  rw [seen, whole, List.drop_zero, lines_linesAbove single, List.dropLast_concat]
  rfl

theorem exists_view (far : window < (linesAbove above).length) :
    ∃ front first, linesAbove above = front ++ linesAbove (first :: seen above) ∧
      (linesAbove (first :: seen above)).length = window ∧ ∀ line ∈ first :: seen above, '\n' ∉ line := by
  obtain ⟨front, view, whole, length⟩ : ∃ front view, linesAbove above = front ++ view ∧ view.length = window := by
    refine ⟨_, _, (List.take_append_drop ((linesAbove above).length - window) _).symm, ?_⟩
    rw [List.length_drop]
    omega
  have edge : (linesAbove above).length - window = front.length := by
    rw [whole, List.length_append]
    omega
  have ends : ∀ c, view.getLast? = some c → c = '\n' := by
    intro c last
    have final : (linesAbove above).getLast? = some c := by rw [whole, List.getLast?_append, last, Option.some_or]
    exact getLast?_linesAbove final
  obtain ⟨ls, single, rfl⟩ := exists_linesAbove ends
  cases ls with
  | nil => exact absurd length (by decide)
  | cons first rest =>
    have sees : seen above = rest := by
      have beyond : 0 < front.length := by omega
      rw [seen, edge, whole, List.drop_left, lines_linesAbove single, List.dropLast_concat, if_pos beyond]
      rfl
    rw [sees]
    exact ⟨front, first, whole, length, single⟩

theorem seen_of_lt (single : ∀ line ∈ above, '\n' ∉ line) (far : window < (linesAbove above).length) :
    ∃ earlier line, above = earlier ++ line :: seen above ∧ (linesAbove (seen above)).length < window ∧
      window ≤ (linesAbove (line :: seen above)).length := by
  obtain ⟨front, first, whole, length, single'⟩ := exists_view far
  generalize seen above = rest at whole length single' ⊢
  have parts : linesAbove above = (front ++ (first ++ ['\n'])) ++ linesAbove rest := by
    rw [whole, linesAbove_cons]
    simp
  obtain ⟨before, split, text⟩ := suffix_of_linesAbove (List.forall_mem_cons.1 single').2 single parts (by simp)
  rw [length_linesAbove_cons] at length
  rcases List.eq_nil_or_concat before with rfl | ⟨earlier, line, rfl⟩
  · simp [linesAbove] at text
  · rw [List.concat_eq_append] at split text
    have ends : linesAbove earlier ++ line = front ++ first := by
      rw [linesAbove_append, ← List.append_assoc] at text
      have cut : (linesAbove earlier ++ line) ++ ['\n'] = (front ++ first) ++ ['\n'] := by
        rw [text]
        simp [linesAbove]
      exact List.append_cancel_right cut
    have longer := length_le_of_linesAbove (single' first List.mem_cons_self) ends
    refine ⟨earlier, line, by rw [split]; simp, by omega, ?_⟩
    rw [length_linesAbove_cons]
    omega

theorem seen_suffix (single : ∀ line ∈ above, '\n' ∉ line) (far : window < (linesAbove above).length) :
    seen above <:+ above := by
  obtain ⟨earlier, line, split, _⟩ := seen_of_lt single far
  generalize seen above = view at split ⊢
  exact ⟨earlier ++ [line], by simp [split]⟩

/-! The run of comments. -/

theorem rtakeWhile_stop {p : List Char → Bool} {line : List Char} (kept : ∀ other ∈ run, p other = true)
    (stops : p line = false) (earlier : List (List Char)) : (earlier ++ line :: run).rtakeWhile p = run := by
  have kept' : ∀ other ∈ run.reverse, p other = true := fun other member => kept other (List.mem_reverse.1 member)
  rw [List.rtakeWhile, List.reverse_append, List.reverse_cons, List.append_assoc, List.takeWhile_append_of_pos kept',
    List.singleton_append, List.takeWhile_cons_of_neg (by simp [stops]), List.append_nil, List.reverse_reverse]

theorem line_above_unique {earlier earlier' below : List (List Char)} {line line' : List Char}
    (same : earlier ++ line :: below = earlier' ++ line' :: below) : earlier = earlier' ∧ line = line' := by
  have cut : (earlier ++ [line]) ++ below = (earlier' ++ [line']) ++ below := by simpa using same
  simpa using List.append_cancel_right cut

theorem IsRun.suffix (isRun : IsRun marker above run) : run <:+ above := by
  rcases isRun.stops with rfl | ⟨earlier, line, rfl, _⟩
  · exact List.suffix_rfl
  · exact ⟨earlier ++ [line], by simp⟩

theorem IsRun.kept (isRun : IsRun marker above run) : ∀ line ∈ run, isMarked marker line = true :=
  fun line member => isMarked_iff.2 (isRun.marked line member)

theorem IsRun.rtakeWhile {view : List (List Char)} (isRun : IsRun marker above run) (part : view <:+ above)
    (short : (linesAbove view).length ≤ window) (within : run <:+ view) :
    view.rtakeWhile (isMarked marker) = run := by
  obtain ⟨more, rfl⟩ := within
  rcases List.eq_nil_or_concat more with rfl | ⟨start, last, rfl⟩
  · exact List.rtakeWhile_eq_self_iff.2 isRun.kept
  · obtain ⟨front, rfl⟩ := part
    rw [List.concat_eq_append, List.append_assoc] at *
    rcases isRun.stops with all | ⟨earlier, line, split, ends⟩
    · have length := congrArg List.length all
      simp only [List.length_append, List.length_cons] at length
      omega
    · rw [← List.append_assoc] at split
      obtain ⟨_, rfl⟩ := line_above_unique split
      rw [length_linesAbove_append] at short
      have inside : (linesAbove (last :: run)).length ≤ window := Nat.le_trans (Nat.le_add_left ..) short
      have other : isMarked marker last = false := by
        rw [Bool.eq_false_iff, Ne, isMarked_iff]
        exact ends.resolve_right (Nat.not_lt_of_le inside)
      exact rtakeWhile_stop isRun.kept other start

/-- When the window does not reach up to the first line, a run is seen as a whole, or its first line begins at the edge. -/
theorem IsRun.within_or_edge (single : ∀ line ∈ above, '\n' ∉ line) (isRun : IsRun marker above run)
    (far : window < (linesAbove above).length) :
    (run <:+ seen above ∧ (linesAbove (seen above)).length < window) ∨
      run.tail = seen above ∧ (linesAbove run).length = window := by
  obtain ⟨earlier, line, split, short, long⟩ := seen_of_lt single far
  generalize seen above = view at split short long ⊢
  have part : view <:+ above := ⟨earlier ++ [line], by simp [split]⟩
  by_cases within : run <:+ view
  · exact .inl ⟨within, short⟩
  obtain ⟨more, rfl⟩ := (List.suffix_or_suffix_of_suffix isRun.suffix part).resolve_left within
  rcases List.eq_nil_or_concat more with rfl | ⟨start, last, rfl⟩
  · exact absurd List.suffix_rfl within
  · obtain ⟨front, whole⟩ := isRun.suffix
    have both : (front ++ start) ++ last :: view = earlier ++ line :: view := by
      rw [← split, ← whole]
      simp
    obtain ⟨_, rfl⟩ := line_above_unique both
    have near := isRun.near
    rw [List.concat_eq_append, List.append_assoc, length_linesAbove_append] at near
    have least : window ≤ (linesAbove ([last] ++ view)).length := long
    obtain rfl : start = [] := eq_nil_of_length_linesAbove (by omega)
    exact .inr ⟨rfl, Nat.le_antisymm isRun.near long⟩

/-- The lines of a run that are seen as whole ones: all but the first, when this begins at the edge of the window. -/
theorem rtakeWhile_seen (single : ∀ line ∈ above, '\n' ∉ line) (isRun : IsRun marker above run) :
    (seen above).rtakeWhile (isMarked marker) = if AtEdge above run then run.tail else run := by
  by_cases whole : (linesAbove above).length ≤ window
  · have off : ¬ AtEdge above run := by
      rintro ⟨length, other⟩
      obtain ⟨front, rfl⟩ := isRun.suffix
      rw [length_linesAbove_append] at whole
      obtain rfl : front = [] := eq_nil_of_length_linesAbove (by omega)
      exact other rfl
    rw [if_neg off, seen_of_le single whole]
    exact isRun.rtakeWhile List.suffix_rfl whole isRun.suffix
  · have far : window < (linesAbove above).length := Nat.lt_of_not_le whole
    rcases isRun.within_or_edge single far with ⟨within, short⟩ | ⟨tail, length⟩
    · obtain ⟨more, same⟩ := within
      have off : ¬ AtEdge above run := by
        rintro ⟨length, _⟩
        rw [← same, length_linesAbove_append] at short
        omega
      rw [if_neg off]
      exact isRun.rtakeWhile (seen_suffix single far) (Nat.le_of_lt short) ⟨more, same⟩
    · have edge : AtEdge above run := by
        refine ⟨length, ?_⟩
        rintro rfl
        omega
      rw [if_pos edge, ← tail]
      exact List.rtakeWhile_eq_self_iff.2 fun line member => isRun.kept line (List.mem_of_mem_tail member)

/-! The prose of the run. -/

theorem joinProse_cons_eq_iff (line : List Char) (ls : List (List Char)) :
    joinProse (line :: ls) = joinProse ls ↔ allBlank line = true := by
  constructor
  · intro same
    rw [allBlank, List.all_eq_true]
    intro c member
    cases inked : isBlank c with
    | true => rfl
    | false =>
      have more := count_joinProse inked (line :: ls)
      rw [same, count_joinProse inked, List.flatten_cons, List.count_append] at more
      have none : line.count c = 0 := by omega
      exact absurd member (List.count_eq_zero.1 none)
  · intro blank
    have none : trim line = [] := (trim_eq_nil_iff line).2 blank
    rw [joinProse, joinProse, List.map_cons, none]
    rfl

theorem exists_isAbove (source : List Char) (pos : Int) : ∃ above, IsAbove source pos above := by
  have bound := resolveOffset_le source.length pos
  generalize offset : resolveOffset source.length pos = p at bound
  let isPart (c : Char) : Bool := c != '\n'
  have parts : (source.take p).rdropWhile isPart ++ (source.take p).rtakeWhile isPart = source.take p :=
    List.rdropWhile_append_rtakeWhile
  have ends : ∀ c, ((source.take p).rdropWhile isPart).getLast? = some c → c = '\n' := by
    intro c last
    have nonempty : (source.take p).rdropWhile isPart ≠ [] := by
      intro empty
      rw [empty] at last
      contradiction
    rw [List.getLast?_eq_getLast_of_ne_nil nonempty] at last
    have stops := List.rdropWhile_last_not isPart _ nonempty
    rw [Option.some.inj last] at stops
    simpa [isPart] using stops
  obtain ⟨above, single, front⟩ := exists_linesAbove ends
  refine ⟨above, single, (source.take p).rtakeWhile isPart, source.drop p, ?_, ?_, ?_⟩
  · rw [← front, ← List.append_assoc, parts, List.take_append_drop]
  · intro newline
    have part := List.mem_rtakeWhile_imp newline
    simp [isPart] at part
  · rw [offset, ← front, ← List.length_append, parts, List.length_take, Nat.min_eq_left bound]

theorem exists_isRun (marker : List Char) (above : List (List Char)) : ∃ run, IsRun marker above run := by
  suffices grown : ∀ earlier run, above = earlier ++ run → (∀ line ∈ run, marker <+: trim line) →
      (linesAbove run).length ≤ window → ∃ run, IsRun marker above run from
    grown above [] (List.append_nil above).symm (List.forall_mem_nil _) (Nat.zero_le _)
  intro earlier
  induction earlier using List.reverseRecOn with
  | nil => exact fun run all marked near => ⟨run, marked, near, .inl all.symm⟩
  | append_singleton earlier line ih =>
    intro run split marked near
    rw [List.append_assoc, List.singleton_append] at split
    by_cases grows : marker <+: trim line ∧ (linesAbove (line :: run)).length ≤ window
    · exact ih (line :: run) split (List.forall_mem_cons.2 ⟨grows.1, marked⟩) grows.2
    · refine ⟨run, marked, near, .inr ⟨earlier, line, split, ?_⟩⟩
      rw [← Nat.not_le]
      exact not_and_or.1 grows

theorem line?_run (stands : IsAbove source pos above) (isRun : IsRun marker above run) :
    line? source pos marker =
      joinProse ((if AtEdge above run then run.tail else run).map (commentIn marker)) := by
  rw [line?_seen stands, rtakeWhile_seen stands.single isRun]

/-- The documentation is the text of the run of comments above, unless the first line of the run begins exactly at the edge
of the window and has ink in its comment. -/
theorem line?_run_iff (source marker : List Char) (pos : Int) :
    (∃ above run, IsAbove source pos above ∧ IsRun marker above run) ∧
      ∀ above run, IsAbove source pos above → IsRun marker above run →
        (line? source pos marker = joinProse (run.map (commentIn marker)) ↔
          ¬ (AtEdge above run ∧ ∃ line ∈ run.head?, allBlank (commentIn marker line) = false)) := by
  constructor
  · obtain ⟨above, stands⟩ := exists_isAbove source pos
    obtain ⟨run, isRun⟩ := exists_isRun marker above
    exact ⟨above, run, stands, isRun⟩
  · intro above run stands isRun
    rw [line?_run stands isRun]
    by_cases edge : AtEdge above run
    · rw [if_pos edge]
      cases run with
      | nil => exact absurd edge.1 (by decide)
      | cons line more =>
        rw [List.tail_cons, List.map_cons, eq_comm, joinProse_cons_eq_iff]
        simp [edge]
    · rw [if_neg edge]
      simp [edge]

def describedAbove : List (List Char) := ["mod a;", "/// Adds.", "  /// Really."].map String.toList

def describedSource : List Char := linesAbove describedAbove ++ "pub fn f()".toList

theorem comments_above_joined :
    IsAbove describedSource 35 describedAbove ∧ IsRun "///".toList describedAbove (describedAbove.drop 1) ∧
      line? describedSource 35 "///".toList = some "Adds. Really.".toList := by
  have stands : IsAbove describedSource 35 describedAbove :=
    { single := by decide
      stands := ⟨"pub ".toList, "fn f()".toList, rfl, by decide, by decide⟩ }
  have isRun : IsRun "///".toList describedAbove (describedAbove.drop 1) :=
    { marked := by decide
      near := by decide
      stops := .inr ⟨[], "mod a;".toList, rfl, .inl (by decide)⟩ }
  have off : ¬ AtEdge describedAbove (describedAbove.drop 1) := by decide
  have prose : joinProse ((describedAbove.drop 1).map (commentIn "///".toList)) = some "Adds. Really.".toList := by decide
  refine ⟨stands, isRun, ?_⟩
  rw [← prose]
  exact ((line?_run_iff _ _ _).2 _ _ stands isRun).2 fun lost => off lost.1

def crowdedAbove : List (List Char) := "mod a;".toList :: List.replicate 50 "/// Lists".toList

theorem comment_at_edge_lost :
    IsAbove (linesAbove crowdedAbove ++ "pub fn f()".toList) 507 crowdedAbove ∧
      IsRun "///".toList crowdedAbove (List.replicate 50 "/// Lists".toList) ∧
      line? (linesAbove crowdedAbove ++ "pub fn f()".toList) 507 "///".toList ≠
        joinProse ((List.replicate 50 "/// Lists".toList).map (commentIn "///".toList)) := by
  refine ⟨⟨?_, [], "pub fn f()".toList, rfl, List.not_mem_nil, by decide +kernel⟩, ⟨?_, ?_, ?_⟩, by decide +kernel⟩
  · decide +kernel
  · exact fun line member => List.eq_of_mem_replicate member ▸ (by decide)
  · decide +kernel
  · exact .inr ⟨[], "mod a;".toList, rfl, .inl (by decide)⟩

end CodeDeck.Doc
