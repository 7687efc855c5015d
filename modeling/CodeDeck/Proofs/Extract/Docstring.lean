import CodeDeck.Proofs.Extract.Cut
import CodeDeck.Proofs.Pattern.Found
import CodeDeck.Proofs.Pattern.Line
import CodeDeck.Proofs.Scan.Extent

/-! The documentation of a definition of Python. It is a string of the source, the first token behind the header; this
string lies in the code of the definition exactly when the body reaches through the line on which the string ends. -/

namespace CodeDeck

open CodeDeck.Text

namespace Doc

/-! Strings with three quotes. -/

/-- A string between three quotes, without these quotes in it, whose lines make up the text. -/
def IsString (s text : List Char) : Prop :=
  ∃ quote inside, (quote = '"' ∨ quote = '\'') ∧ s = [quote, quote, quote] ++ (inside ++ [quote, quote, quote]) ∧
    ¬ [quote, quote, quote] <:+: inside ++ [quote, quote] ∧ joinProse (lines inside) = some text

def Quotes (s text : List Char) : Prop := ∃ string, string <:+: s ∧ IsString string text

variable {s text : List Char} {quote : Char}

theorem IsString.getLast? (is : IsString s text) : ∃ quote, s.getLast? = some quote ∧ (quote = '"' ∨ quote = '\'') := by
  obtain ⟨quote, inside, sign, rfl, _⟩ := is
  refine ⟨quote, ?_, sign⟩
  rw [← List.append_assoc, List.getLast?_append]
  rfl

theorem IsString.head? (is : IsString s text) : ∃ quote, s.head? = some quote ∧ (quote = '"' ∨ quote = '\'') := by
  obtain ⟨quote, inside, sign, rfl, _⟩ := is
  exact ⟨quote, rfl, sign⟩

theorem Quotes.six_le_count (quoted : Quotes s text) : 6 ≤ s.count '"' ∨ 6 ≤ s.count '\'' := by
  obtain ⟨_, within, quote, inside, sign, rfl, _⟩ := quoted
  have count := within.sublist.count_le quote
  have six : 6 ≤ ([quote, quote, quote] ++ (inside ++ [quote, quote, quote])).count quote := by
    simp only [List.count_append, List.count_cons_self, List.count_nil]
    omega
  rcases sign with rfl | rfl
  · exact .inl (six.trans count)
  · exact .inr (six.trans count)

theorem exists_of_tripleQuoted? {inside : List Char} (found : tripleQuoted? quote s = some inside) :
    ∃ rest, s = inside ++ ([quote, quote, quote] ++ rest) ∧ ¬ [quote, quote, quote] <:+: inside ++ [quote, quote] := by
  induction s generalizing inside with
  | nil => contradiction
  | cons c more ih =>
    rw [tripleQuoted?] at found
    split at found
    · next closes =>
      obtain rfl := Option.some.inj found
      obtain ⟨rest, same⟩ := List.isPrefixOf_iff_prefix.1 closes
      refine ⟨rest, same.symm, fun within => ?_⟩
      exact absurd within.length_le (by simp)
    · next goesOn =>
      obtain ⟨others, later, rfl⟩ := Option.map_eq_some_iff.1 found
      obtain ⟨rest, rfl, open_⟩ := ih later
      refine ⟨rest, rfl, fun within => ?_⟩
      rcases List.infix_cons_iff.1 within with start | behind
      · apply goesOn
        rw [List.isPrefixOf_iff_prefix]
        refine start.trans (List.cons_prefix_cons.2 ⟨rfl, ?_⟩)
        exact (List.prefix_append_right_inj others).2 ⟨quote :: rest, rfl⟩
      · exact open_ behind

theorem exists_string_of_tripleQuoted? {behind inside : List Char} (sign : quote = '"' ∨ quote = '\'')
    (closes : tripleQuoted? quote behind = some inside) (joined : joinProse (lines inside) = some text) :
    ∃ string more, quote :: quote :: quote :: behind = string ++ more ∧ IsString string text := by
  obtain ⟨more, rfl, open_⟩ := exists_of_tripleQuoted? closes
  exact ⟨[quote, quote, quote] ++ (inside ++ [quote, quote, quote]), more, by simp, quote, inside, sign, rfl, open_,
    joined⟩

def IsMark (mark : List Char) : Prop := mark = [] ∨ ∃ c ∈ ['r', 'R', 'u', 'U'], mark = [c]

theorem exists_mark (s : List Char) : ∃ mark, s = mark ++ dropStringMark s ∧ IsMark mark := by
  cases s with
  | nil => exact ⟨[], rfl, .inl rfl⟩
  | cons c rest =>
    rw [dropStringMark]
    split
    · next marked => exact ⟨[c], rfl, .inr ⟨c, marked, rfl⟩⟩
    · exact ⟨[], rfl, .inl rfl⟩

theorem exists_string_of_docstring? {source : List Char} {pos : Nat} (found : docstring? source pos = some text) :
    ∃ gap mark string rest, source.drop pos = gap ++ (mark ++ (string ++ rest)) ∧ (∀ c ∈ gap, isBlank c = true) ∧
      IsMark mark ∧ IsString string text := by
  obtain ⟨inside, quoted, joined⟩ := Option.bind_eq_some_iff.1 found
  rw [resolveOffset_natCast] at quoted
  generalize resolveOffset source.length (pos + window) = stop at quoted
  have same : source.drop (min pos source.length) = source.drop pos := by
    rcases Nat.le_total pos source.length with inside | outside
    · rw [Nat.min_eq_left inside]
    · rw [Nat.min_eq_right outside, List.drop_length, List.drop_of_length_le outside]
  obtain ⟨rest, whole⟩ : slice source (min pos source.length) stop <+: source.drop pos :=
    same ▸ List.take_prefix ..
  generalize slice source (min pos source.length) stop = view at quoted whole
  obtain ⟨mark, marked, isMark⟩ := exists_mark (trimStart view)
  have split : view = view.takeWhile isBlank ++ (mark ++ dropStringMark (trimStart view)) := by
    rw [← marked]
    exact List.takeWhile_append_dropWhile.symm
  have blank : ∀ c ∈ view.takeWhile isBlank, isBlank c = true := fun _ member => List.mem_takeWhile_imp member
  obtain ⟨string, more, token, isString⟩ :
      ∃ string more, dropStringMark (trimStart view) = string ++ more ∧ IsString string text := by
    split at quoted
    · next behind opens => exact opens ▸ exists_string_of_tripleQuoted? (.inl rfl) quoted joined
    · next behind opens => exact opens ▸ exists_string_of_tripleQuoted? (.inr rfl) quoted joined
    · contradiction
  refine ⟨view.takeWhile isBlank, mark, string, more ++ rest, ?_, blank, isMark, isString⟩
  rw [← whole]
  conv_lhs => rw [split, token]
  simp only [List.append_assoc]

end Doc

namespace Extract.Indented

open CodeDeck.Pattern CodeDeck.Scan

/-! The lines that belong to a definition. -/

section Lines

variable {ls : List (List Char)} {start stop last : Nat} {top : List Char}

/-- The first line with ink below the header is indented, and as deep as this line are the others with ink, through line
`last`. -/
def Reaches (ls : List (List Char)) (start last : Nat) : Prop :=
  ∃ first, firstInked? ls (headerEnd ls start + 1) = some first ∧ 0 < indentWidth first ∧
    ∀ line ∈ span ls (headerEnd ls start + 1) (last + 1), allBlank line = true ∨ indentWidth first ≤ indentWidth line

theorem mem_span_of_le {line : List Char} {first : Nat} (after : first ≤ stop) (before : stop ≤ last)
    (member : line ∈ span ls first stop ∨ line ∈ span ls stop last) : line ∈ span ls first last := by
  rw [span_append ls after before, List.mem_append]
  exact member

theorem exists_shallow {width : Nat} {line : List Char} (shallow : Shallow width (ls.drop stop)) (below : stop ≤ last)
    (stands : ls[last]? = some line) (inked : allBlank line = false) :
    ∃ other ∈ span ls stop (last + 1), allBlank other = false ∧ indentWidth other < width := by
  have member : line ∈ span ls stop (last + 1) := by
    have within : (span ls stop (last + 1))[last - stop]? = some line := by
      rw [span, List.getElem?_take_of_lt (by omega), List.getElem?_drop, Nat.add_sub_cancel' below, stands]
    exact List.mem_of_getElem? within
  have found : ((span ls stop (last + 1)).find? fun line => !allBlank line).isSome = true := by
    rw [List.find?_isSome]
    exact ⟨line, member, by simp [inked]⟩
  obtain ⟨other, first⟩ := Option.isSome_iff_exists.1 found
  have whole := span_append_drop ls (Nat.le_succ_of_le below)
  refine ⟨other, List.mem_of_find?_eq_some first, by simpa using List.find?_some first, shallow other ?_⟩
  rw [← whole, List.find?_append, first]
  rfl

theorem lt_extent_iff (extent : Extent ls start stop) (stands : ls[start]? = some top) (flat : indentWidth top = 0)
    {line : List Char} (below : headerEnd ls start < last) (there : ls[last]? = some line)
    (inked : allBlank line = false) : last < stop ↔ Reaches ls start last := by
  cases extent with
  | @body top' first header _ stands' ends opens deeper whole =>
    obtain rfl := ends.unique (isHeaderEnd ls start)
    constructor
    · intro less
      refine ⟨first, opens, by omega, fun other member => whole.deep other ?_⟩
      exact mem_span_of_le (by omega) less (.inl member)
    · rintro ⟨first', opens', _, deep⟩
      obtain rfl := Option.some.inj (opens.symm.trans opens')
      by_contra outside
      obtain ⟨other, member, inked', less⟩ := exists_shallow whole.shallow (Nat.le_of_not_lt outside) there inked
      have after := whole.after
      rcases deep other (mem_span_of_le (by omega) (by omega) (.inr member)) with blank | deeper
      · rw [inked'] at blank
        contradiction
      · omega
  | @bare top' header stands' ends flat' =>
    obtain rfl := ends.unique (isHeaderEnd ls start)
    obtain rfl := Option.some.inj (stands.symm.trans stands')
    refine iff_of_false (by omega) ?_
    rintro ⟨first, opens, indented, _⟩
    have le := flat' first opens
    omega

end Lines

/-! The place of a definition and of its code. -/

section Place

variable {ls : List (List Char)} {source : List Char} {start stop : Nat} {m : Found}

theorem exists_top (member : m ∈ definitionHead.findAll source) :
    ∃ top c, (lines source)[(source.take m.start).count '\n']? = some top ∧ top.head? = some c ∧ isBlank c = false := by
  obtain ⟨before, text, same, _, matched⟩ := exists_place_of_mem_findAll member
  obtain ⟨finish, run, rfl⟩ := Option.map_eq_some_iff.1 matched
  obtain ⟨starts, run⟩ := startsLine_of_run? run
  obtain ⟨keyword, more, _, takes, ahead, _⟩ := exists_first_of_run? run
  obtain rfl : text = keyword ++ more := ahead
  obtain ⟨c, first, inked⟩ : ∃ c, keyword.head? = some c ∧ isBlank c = false := by
    rcases takes with ⟨_, _, rfl, async, _⟩ | function | concept
    · obtain rfl := show _ = "async".toList from async
      exact ⟨'a', rfl, by decide⟩
    · obtain rfl := show keyword = "def".toList from function
      exact ⟨'d', rfl, by decide⟩
    · obtain rfl := show keyword = "class".toList from concept
      exact ⟨'c', rfl, by decide⟩
  obtain ⟨above, front, top, below, split, whole, rest, length⟩ := exists_lines_split before (keyword ++ more)
  have listed : front ++ top ∈ lines (before ++ (keyword ++ more)) := by simp [split]
  have inLine : '\n' ∉ front := fun member => newline_notMem_of_mem_lines listed (List.mem_append_left _ member)
  obtain rfl : front = [] := by
    rcases List.eq_nil_or_concat' front with empty | ⟨lead, d, rfl⟩
    · exact empty
    · rw [whole, lastOr_append, lastOr_append] at starts
      obtain rfl := starts d rfl
      exact absurd (by simp) inLine
  refine ⟨top, c, ?_, ?_, inked⟩
  · rw [same, List.take_left, ← length, split]
    simp
  · have head : (top ++ linesBelow below).head? = some c := by
      rw [← rest, List.head?_append, first]
      rfl
    cases top with
    | nil =>
      cases below with
      | nil => contradiction
      | cons line more =>
        obtain rfl : '\n' = c := Option.some.inj head
        exact absurd inked (by decide)
    | cons d others => exact head

theorem exists_decorators (inside : start ≤ ls.length) :
    ∃ above decorators, ls = above ++ (decorators ++ ls.drop start) ∧ (above ++ decorators).length = start ∧
      (∀ line ∈ decorators, line.head? = some '@') ∧
      (ls.drop (start - decoratorCount (ls.take start).reverse)).take (decoratorCount (ls.take start).reverse) =
        decorators := by
  have split : (ls.take start).rdropWhile (fun line => line.head? == some '@') ++
      (ls.take start).rtakeWhile (fun line => line.head? == some '@') = ls.take start :=
    List.rdropWhile_append_rtakeWhile
  have count : decoratorCount (ls.take start).reverse =
      ((ls.take start).rtakeWhile fun line => line.head? == some '@').length := List.length_reverse.symm
  have all : ∀ line ∈ (ls.take start).rtakeWhile fun line => line.head? == some '@', line.head? = some '@' := by
    intro line member
    have signed := List.mem_rtakeWhile_imp member
    exact beq_iff_eq.1 signed
  rw [count]
  generalize (ls.take start).rtakeWhile (fun line => line.head? == some '@') = decorators at split all
  generalize (ls.take start).rdropWhile (fun line => line.head? == some '@') = above at split
  have length : (above ++ decorators).length = start := by
    rw [split, List.length_take, Nat.min_eq_left inside]
  have whole : ls = above ++ (decorators ++ ls.drop start) := by
    rw [← List.append_assoc, split, List.take_append_drop]
  refine ⟨above, decorators, whole, length, all, ?_⟩
  have front : start - decorators.length = above.length := by
    rw [← length, List.length_append, Nat.add_sub_cancel]
  rw [front]
  conv_lhs => rw [whole, List.drop_left, List.take_left]

theorem lineEnd_eq (some : ls ≠ []) (i : Nat) : lineEnd ls i = (joinLines (ls.take (i + 1))).length := by
  have counted (ls : List (List Char)) (n : Nat) :
      ls.foldl (fun n line => n + line.length + 1) n = n + (linesAbove ls).length := by
    induction ls generalizing n with
    | nil => rfl
    | cons line more ih =>
      rw [List.foldl_cons, ih, length_linesAbove_cons]
      omega
  have taken : ls.take (i + 1) ≠ [] := by
    rw [Ne, List.take_eq_nil_iff]
    simp [some]
  rw [lineEnd, counted, Nat.zero_add, linesAbove_eq taken, List.length_append]
  rfl

/-- Behind `front` stands a string with the text, the first token below the line. -/
structure StringBelow (source : List Char) (line : Nat) (front string text : List Char) : Prop where
  isString : Doc.IsString string text
  stands : front ++ string <+: source
  opens : ∃ gap mark, front = joinLines ((lines source).take (line + 1)) ++ '\n' :: (gap ++ mark) ∧
    (∀ c ∈ gap, isBlank c = true) ∧ Doc.IsMark mark

theorem exists_endsLine (some : ls ≠ []) (i : Nat) :
    ∃ rest, joinLines ls = joinLines (ls.take (i + 1)) ++ rest ∧ EndsLine rest := by
  have taken : ls.take (i + 1) ≠ [] := by
    rw [Ne, List.take_eq_nil_iff]
    simp [some]
  refine ⟨linesBelow (ls.drop (i + 1)), ?_, List.append_nil (linesBelow _) ▸ endsLine_linesBelow _ endsLine_nil⟩
  have whole := joinLines_middle [] taken (ls.drop (i + 1))
  rwa [List.take_append_drop] at whole

theorem exists_stringBelow {line : Nat} {text : List Char}
    (found : Doc.docstring? source (lineEnd (lines source) line) = some text) :
    ∃ front string, StringBelow source line front string text := by
  have some : lines source ≠ [] := splitOn_ne_nil '\n' source
  obtain ⟨gap, mark, string, rest, behind, blank, isMark, isString⟩ := Doc.exists_string_of_docstring? found
  obtain ⟨quote, first, sign⟩ := isString.head?
  obtain ⟨others, whole, ends⟩ := exists_endsLine some line
  rw [joinLines_lines] at whole
  have dropped := congrArg (List.drop (joinLines ((lines source).take (line + 1))).length) whole
  rw [List.drop_left, ← lineEnd_eq some, behind] at dropped
  subst dropped
  cases gap with
  | nil =>
    -- neither a mark nor a quote ends a line
    rcases isMark with rfl | ⟨c, marked, rfl⟩
    · have newline := ends quote (by rw [List.nil_append, List.nil_append, List.head?_append, first]; rfl)
      rcases sign with rfl | rfl <;> exact absurd newline (by decide)
    · obtain rfl : c = '\n' := ends c rfl
      exact absurd marked (by decide)
  | cons c gap =>
    obtain rfl : c = '\n' := ends c rfl
    have blanks : ∀ d ∈ gap, isBlank d = true := fun d member => blank d (List.mem_cons_of_mem _ member)
    refine ⟨_, string, isString, ⟨rest, ?_⟩, gap, mark, rfl, blanks, isMark⟩
    conv_rhs => rw [whole]
    simp only [List.append_assoc, List.cons_append]

theorem prefix_joinLines_iff {rows below : List (List Char)} {part : List Char} (some : rows ≠ [])
    (single : ∀ line ∈ rows ++ below, '\n' ∉ line) (start : part <+: joinLines (rows ++ below)) :
    part <+: joinLines rows ↔ part.count '\n' < rows.length := by
  obtain ⟨rest, whole⟩ := start
  obtain ⟨above, front, back, others, split, same, _, length⟩ := exists_lines_split part rest
  rw [whole, lines_joinLines (by simp [some]) single] at split
  constructor
  · intro within
    have count := within.sublist.count_le '\n'
    have total := length_lines (joinLines rows)
    rw [lines_joinLines some fun line member => single line (List.mem_append_left _ member), countLines] at total
    omega
  · intro less
    have begins : above ++ [front ++ back] <+: rows := by
      have both : above ++ [front ++ back] <+: rows ++ below := by
        rw [split]
        exact ⟨others, by simp⟩
      refine List.prefix_of_prefix_length_le both (List.prefix_append ..) ?_
      rw [List.length_append, List.length_singleton]
      omega
    refine List.IsPrefix.trans ?_ (joinLines_isPrefix begins)
    rw [joinLines_around, linesBelow, List.flatMap_nil, List.append_nil, same]
    exact (List.prefix_append_right_inj _).2 (List.prefix_append ..)

theorem exists_inked_line {part : List Char} {c : Char} (start : part <+: source) (last : part.getLast? = some c)
    (inked : isBlank c = false) :
    ∃ line, (lines source)[part.count '\n']? = some line ∧ allBlank line = false := by
  obtain ⟨rest, rfl⟩ := start
  obtain ⟨above, front, back, below, split, whole, _, length⟩ := exists_lines_split part rest
  refine ⟨front ++ back, by rw [split, ← length]; simp, ?_⟩
  have member : c ∈ front := by
    cases front with
    | nil =>
      rw [whole, List.append_nil] at last
      obtain rfl := getLast?_linesAbove last
      exact absurd inked (by decide)
    | cons d more =>
      rw [whole, List.getLast?_append, List.getLast?_eq_some_getLast (List.cons_ne_nil d more)] at last
      exact Option.some.inj last ▸ List.getLast_mem _
  rw [allBlank, List.all_eq_false]
  exact ⟨c, List.mem_append_left _ member, by simp [inked]⟩

namespace StringBelow

variable {line : Nat} {front string text : List Char} (below : StringBelow source line front string text)
include below

theorem linesAbove_isPrefix : linesAbove ((lines source).take (line + 1)) <+: front := by
  obtain ⟨gap, mark, same, _⟩ := below.opens
  have taken : (lines source).take (line + 1) ≠ [] := by
    rw [Ne, List.take_eq_nil_iff]
    simp [splitOn_ne_nil, lines]
  rw [same, linesAbove_eq taken]
  exact (List.prefix_append_right_inj _).2 (List.prefix_append ['\n'] _)

theorem exists_last :
    line < (front ++ string).count '\n' ∧
      ∃ last, (lines source)[(front ++ string).count '\n']? = some last ∧ allBlank last = false := by
  obtain ⟨quote, final, sign⟩ := below.isString.getLast?
  have ends : (front ++ string).getLast? = some quote := by
    rw [List.getLast?_append, final]
    rfl
  have inked : isBlank quote = false := by
    rcases sign with rfl | rfl <;> decide
  obtain ⟨last, stands, ink⟩ := exists_inked_line below.stands ends inked
  have inside := (List.getElem?_eq_some_iff.1 stands).1
  have above := below.linesAbove_isPrefix.sublist.count_le '\n'
  have single : ∀ row ∈ (lines source).take (line + 1), '\n' ∉ row :=
    fun row member => newline_notMem_of_mem_lines (List.mem_of_mem_take member)
  rw [count_linesAbove single, List.length_take] at above
  rw [List.count_append] at inside
  refine ⟨?_, last, stands, ink⟩
  rw [List.count_append]
  omega

end StringBelow

theorem within_trim_iff {above front string code : List Char} {c : Char} (lead : above <+: front)
    (opens : ∀ c, code.head? = some c → isBlank c = false) (last : string.getLast? = some c)
    (inked : isBlank c = false) :
    front ++ string <+: above ++ trim code ↔ front ++ string <+: above ++ code := by
  obtain ⟨middle, rfl⟩ := lead
  rw [List.append_assoc, List.prefix_append_right_inj, List.prefix_append_right_inj, trim, trimStart_of_inked opens]
  constructor
  · exact fun within => within.trans (trimEnd_isPrefix code)
  · intro within
    apply prefix_trimEnd within _ inked
    rw [List.getLast?_append, last]
    rfl

theorem extent_bounds {top : List Char} (extent : Extent ls start stop) (stands : ls[start]? = some top) :
    start < stop ∧ stop ≤ ls.length := by
  have after := le_headerEnd ls start
  have inside := (List.getElem?_eq_some_iff.1 stands).1
  cases extent with
  | body _ ends _ _ whole =>
    obtain rfl := ends.unique (isHeaderEnd ls start)
    obtain ⟨line, final, _⟩ := whole.inked
    have less := (List.getElem?_eq_some_iff.1 final).1
    have longer := whole.after
    omega
  | bare _ ends _ =>
    have unique := ends.unique (isHeaderEnd ls start)
    cases ends with
    | closes _ less _ _ => omega
    | never _ => omega

theorem exists_rows {top body : List Char} {c : Char} (stands : ls[start]? = some top) (first : top.head? = some c)
    (inked : isBlank c = false) (matched : indentBlock? ls start = some body) :
    ∃ above rows below, ls = above ++ (rows ++ below) ∧ rows ≠ [] ∧ above.length ≤ start ∧
      Extent ls start (above ++ rows).length ∧ (∀ c, (joinLines rows).head? = some c → isBlank c = false) ∧
      joinLines ((ls.drop (start - decoratorCount (ls.take start).reverse)).take
        (decoratorCount (ls.take start).reverse) ++ [body]) = joinLines rows := by
  have many : 2 ≤ ls.length := by
    by_contra few
    rw [indentBlock?, if_pos (Nat.lt_of_not_le few)] at matched
    contradiction
  obtain ⟨⟨stop, extent⟩, cut⟩ := indentBlock?_extent many stands
  obtain rfl := Option.some.inj (matched.symm.trans (cut stop extent))
  obtain ⟨after, inside⟩ := extent_bounds extent stands
  have bounded : start ≤ ls.length := by omega
  obtain ⟨above, decorators, split, length, signed, taken⟩ := exists_decorators bounded
  obtain ⟨more, opens⟩ : ∃ more, span ls start stop = top :: more := by
    obtain ⟨here, same⟩ := List.getElem?_eq_some_iff.1 stands
    obtain ⟨n, rfl⟩ := Nat.exists_eq_add_of_lt after
    exact ⟨_, by rw [span_succ, List.drop_eq_getElem_cons here, same, List.take_succ_cons]⟩
  have some : span ls start stop ≠ [] := by
    rw [opens]
    exact List.cons_ne_nil _ _
  have count : (span ls start stop).length = stop - start := by
    rw [span, List.length_take, List.length_drop]
    omega
  refine ⟨above, decorators ++ span ls start stop, ls.drop stop, ?_, by simp [some], ?_, ?_, ?_, ?_⟩
  · rw [List.append_assoc, span_append_drop ls (Nat.le_of_lt after)]
    exact split
  · rw [← length, List.length_append]
    omega
  · have whole : (above ++ (decorators ++ span ls start stop)).length = stop := by
      rw [← List.append_assoc, List.length_append, length, count]
      omega
    rwa [whole]
  · intro d ahead
    cases decorators with
    | nil =>
      obtain ⟨letters, rfl⟩ := List.head?_eq_some_iff.1 first
      rw [List.nil_append, opens, joinLines_cons] at ahead
      obtain rfl : c = d := Option.some.inj ahead
      exact inked
    | cons line others =>
      obtain ⟨letters, rfl⟩ := List.head?_eq_some_iff.1 (signed line List.mem_cons_self)
      rw [List.cons_append, joinLines_cons] at ahead
      obtain rfl : '@' = d := Option.some.inj ahead
      decide
  · rw [taken, joinLines_concat _ some]

end Place

theorem le_docLine (ls : List (List Char)) (start : Nat) : headerEnd ls start ≤ docLine ls start := Nat.le_add_right _ _

section Within

variable {source front string text : List Char} {start : Nat} {above rows below : List (List Char)}
  (split : lines source = above ++ (rows ++ below)) (before : above.length ≤ start)
  (under : StringBelow source (docLine (lines source) start) front string text)
include split before under

theorem linesAbove_isPrefix_of_le : linesAbove above <+: front := by
  have after := le_headerEnd (lines source) start
  have header := le_docLine (lines source) start
  have upper : (lines source).take above.length = above := by rw [split, List.take_left]
  obtain ⟨more, same⟩ : above <+: (lines source).take (docLine (lines source) start + 1) := by
    rw [← upper]
    exact List.take_prefix_take_left (by omega)
  refine List.IsPrefix.trans ?_ under.linesAbove_isPrefix
  rw [← same, linesAbove_append]
  exact List.prefix_append ..

/-- The string lies in the code that is made of the lines of a definition just when the definition reaches its end. -/
theorem string_within_iff {top : List Char} (nonempty : rows ≠ [])
    (opens : ∀ c, (joinLines rows).head? = some c → isBlank c = false)
    (extent : Extent (lines source) start (above ++ rows).length) (stands : (lines source)[start]? = some top)
    (flat : indentWidth top = 0) :
    front ++ string <+: linesAbove above ++ trim (joinLines rows) ↔
      Reaches (lines source) start ((front ++ string).count '\n') := by
  have header := le_docLine (lines source) start
  have lead := linesAbove_isPrefix_of_le split before under
  have whole : joinLines ((above ++ rows) ++ below) = source := by
    rw [List.append_assoc, ← split, joinLines_lines]
  have single : ∀ line ∈ (above ++ rows) ++ below, '\n' ∉ line := by
    rw [List.append_assoc, ← split]
    exact fun line member => newline_notMem_of_mem_lines member
  have only : linesAbove above ++ joinLines rows = joinLines (above ++ rows) := by
    have middle := joinLines_middle above nonempty []
    rw [List.append_nil, linesBelow, List.flatMap_nil, List.append_nil] at middle
    exact middle.symm
  obtain ⟨less, last, there, ink⟩ := under.exists_last
  obtain ⟨quote, final, sign⟩ := under.isString.getLast?
  have inked : isBlank quote = false := by
    rcases sign with rfl | rfl <;> decide
  rw [within_trim_iff lead opens final inked, only,
    prefix_joinLines_iff (List.append_ne_nil_of_right_ne_nil _ nonempty) single (whole ▸ under.stands)]
  exact lt_extent_iff extent stands flat (by omega) there ink

end Within

/-- The documentation of a definition is a string of the source, the first token below its header and the comments
there. This string lies in the code of the definition exactly when the body reaches through the line on which the string
ends. -/
theorem docstring_within_iff {file : File} {b : Block} {text : String} (member : b ∈ blocks file)
    (told : b.docText = some text) :
    ∃ m start above front string, m ∈ definitionHead.findAll file.source ∧
      definitionBlock? file (lines file.source) m = some b ∧ (file.source.take m.start).count '\n' = start ∧
      above ++ b.code.toList <+: file.source ∧ above <+: front ∧
      StringBelow file.source (docLine (lines file.source) start) front string text.toList ∧
      (front ++ string <+: above ++ b.code.toList ↔
        Reaches (lines file.source) start ((front ++ string).count '\n')) ∧
      (Reaches (lines file.source) start ((front ++ string).count '\n') → Doc.Quotes b.code.toList text.toList) := by
  obtain ⟨m, found, made⟩ := List.mem_filterMap.1 member
  have block := made
  obtain ⟨top, c, stands, first, inked⟩ := exists_top found
  simp only [definitionBlock?] at made
  generalize line : (file.source.take m.start).count '\n' = start at stands made
  split at made
  · contradiction
  obtain ⟨body, matched, made⟩ := Option.bind_eq_some_iff.1 made
  obtain ⟨above, rows, below, split, some, before, extent, opens, code⟩ := exists_rows stands first inked matched
  rw [code] at made
  obtain ⟨_, _, _, cut, _, doc⟩ := Block.ofCode?_fields made
  obtain ⟨prose, given, rfl⟩ := Option.map_eq_some_iff.1 (doc.symm.trans told)
  obtain ⟨front, string, under⟩ := exists_stringBelow given
  rw [← String.toList_ofList (l := prose)] at under
  have trimmed : b.code.toList = trim (joinLines rows) := by rw [cut, String.toList_ofList]
  have lead := linesAbove_isPrefix_of_le split before under
  have within := string_within_iff split before under some opens extent stands (indentWidth_of_inked first inked)
  rw [← trimmed] at within
  refine ⟨m, start, linesAbove above, front, string, found, block, line, ?_, lead, under, within, fun reaches => ?_⟩
  · have whole := joinLines_middle above some below
    rw [← split, joinLines_lines] at whole
    rw [trimmed, whole, trim, trimStart_of_inked opens]
    exact (List.prefix_append_right_inj _).2 ((trimEnd_isPrefix _).trans (List.prefix_append ..))
  · have inside := within.2 reaches
    obtain ⟨middle, rfl⟩ := lead
    rw [List.append_assoc, List.prefix_append_right_inj] at inside
    exact ⟨string, (List.suffix_append ..).isInfix.trans inside.isInfix, under.isString⟩

def total : Block where
  name := "total"
  kind := .function
  code := "@memo\ndef total(\n  items,\n):\n    # all of them\n\n    r'''Adds\n      up.'''\n    return sum(items)"
  filePath := "total.py"
  language := "python"
  docText := some "Adds up."
  lineCount := 9

def totalFile : File := ⟨"total.py", ("import memo\n\n" ++ total.code ++ "\n").toList, "python"⟩

theorem docstring_of_total :
    total ∈ blocks totalFile ∧ total.docText = some "Adds up." ∧
      Doc.Quotes total.code.toList "Adds up.".toList := by
  have member : total ∈ blocks totalFile := by decide +kernel
  obtain ⟨m, start, _, front, string, found, _, line, _, _, _, _, quoted⟩ := docstring_within_iff member rfl
  have only : ∀ m ∈ definitionHead.findAll totalFile.source, (totalFile.source.take m.start).count '\n' = 3 := by
    decide +kernel
  obtain rfl : start = 3 := line.symm.trans (only m found)
  have opens : firstInked? (lines totalFile.source) (headerEnd (lines totalFile.source) 3 + 1) =
      some "    # all of them".toList := by
    decide +kernel
  have deep : ∀ line ∈ (lines totalFile.source).drop (headerEnd (lines totalFile.source) 3 + 1),
      allBlank line = true ∨ indentWidth "    # all of them".toList ≤ indentWidth line := by
    decide +kernel
  have reaches : Reaches (lines totalFile.source) 3 ((front ++ string).count '\n') :=
    ⟨_, opens, by decide, fun line inside => deep line (List.mem_of_mem_take inside)⟩
  exact ⟨member, rfl, quoted reaches⟩

def one : Block where
  name := "one"
  kind := .function
  code := "def one(): return 1"
  filePath := "one.py"
  language := "python"
  docText := some "Constants."
  lineCount := 1

def two : Block where
  name := "two"
  kind := .function
  code := "def two():\n    \"\"\"Two"
  filePath := "two.py"
  language := "python"
  docText := some "Two lines."
  lineCount := 2

/-- A function on one line is documented by a string that does not belong to it, and a string with a line that is
indented less is cut. -/
theorem docstring_outside :
    (one ∈ blocks ⟨"one.py", "def one(): return 1\n\"\"\"Constants.\"\"\"\nLIMIT = 2\n".toList, "python"⟩ ∧
        one.docText = some "Constants." ∧ ¬ Doc.Quotes one.code.toList "Constants.".toList) ∧
      two ∈ blocks ⟨"two.py", "def two():\n    \"\"\"Two\nlines.\"\"\"\n    return 2\n".toList, "python"⟩ ∧
        two.docText = some "Two lines." ∧ ¬ Doc.Quotes two.code.toList "Two lines.".toList := by
  refine ⟨⟨by decide +kernel, rfl, fun quoted => ?_⟩, by decide +kernel, rfl, fun quoted => ?_⟩
  · have quotes := quoted.six_le_count
    revert quotes
    decide
  · have quotes := quoted.six_le_count
    revert quotes
    decide

end Extract.Indented

end CodeDeck
