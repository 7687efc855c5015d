import CodeDeck.Proofs.Extract.Definition
import CodeDeck.Proofs.Extract.Grammar
import CodeDeck.Proofs.Pattern.Line

/-! Definitions recovered from their source. Functions and classes with other lines between them give back exactly
those that are worth a block, in their order, each from its decorators through the last line of its body. -/

namespace CodeDeck.Extract.Indented

open CodeDeck.Text CodeDeck.Pattern CodeDeck.Scan

/-! What the pattern takes of a header. -/

def head : Pattern :=
  ofList
    [.keep 1 (anyOf [ofList [word "async", blanks1, word "def"], word "def", word "class"]), blanks1, .keep 2 name]

theorem definitionHead_eq : definitionHead = .both .lineStart head := rfl

def openers : List (List Char) := ["async".toList, "def".toList, "class".toList]

theorem exists_opener {s : List Char} (starts : head.Starts s) : ∃ w ∈ openers, w <+: s := by
  obtain ⟨a, rest, rfl, takes, _⟩ := starts.both
  have start {w : List Char} (part : w <+: a) : w <+: a ++ rest := part.trans (List.prefix_append ..)
  rcases takes with coroutine | function | concept
  · obtain ⟨b, c, rfl, async, _⟩ := coroutine
    obtain rfl : b = "async".toList := async
    exact ⟨_, by decide, start (List.prefix_append ..)⟩
  · obtain rfl : a = "def".toList := function
    exact ⟨_, by decide, start (List.prefix_refl _)⟩
  · obtain rfl : a = "class".toList := concept
    exact ⟨_, by decide, start (List.prefix_refl _)⟩

theorem passes_of_not_opener {line : List Char} (single : '\n' ∉ line) (other : ∀ w ∈ openers, ¬ w <+: line) :
    head.Passes line where
  single := single
  absent := by
    intro rest ends starts
    obtain ⟨w, member, start⟩ := exists_opener starts
    have apart : ∀ w ∈ openers, '\n' ∉ w := by decide
    exact other w member (prefix_of_endsLine ends (apart w member) start)

theorem passes_of_head {line : List Char} (single : '\n' ∉ line)
    (first : ∀ c, line.head? = some c → isBlank c = true ∨ c = '@') : head.Passes line := by
  apply passes_of_not_opener single
  intro w member start
  have lettered : ∀ w ∈ openers, w.head?.any (fun c => !isBlank c && c != '@') = true := by decide
  have letter := lettered w member
  cases w with
  | nil => contradiction
  | cons c rest =>
    obtain ⟨more, rfl⟩ := start
    rcases first c rfl with blank | sign
    · simp [blank] at letter
    · simp [sign] at letter

theorem keyword_takes (k : Keyword) (rest : List Char) :
    (anyOf [ofList [word "async", blanks1, word "def"], word "def", word "class"]).Prefers k.text rest [] := by
  cases k with
  | function =>
    have noAsync : ¬ "async".toList <+: "def".toList ++ rest := by simp
    apply Prefers.other fun starts => noAsync starts.opening
    exact (prefers_text _ _).first _
  | coroutine =>
    show Prefers _ ("async".toList ++ ([' '] ++ "def".toList)) rest []
    apply Prefers.first
    apply (prefers_text _ _).lead
    exact (prefers_space (by decide) rfl (by decide)).lead (prefers_text _ _)
  | concept =>
    have noAsync : ¬ "async".toList <+: "class".toList ++ rest := by simp
    have noDef : ¬ "def".toList <+: "class".toList ++ rest := by simp
    apply Prefers.other fun starts => noAsync starts.opening
    apply Prefers.other fun starts => noDef starts.text
    exact prefers_text _ _

namespace Definition

def lead (d : Definition) : List Char := d.keyword.text ++ ([' '] ++ d.name)

theorem header_eq (d : Definition) : d.header = d.lead ++ d.signature := by
  simp [header, lead]

def kept (d : Definition) : List (Nat × List Char) := [(2, d.name), (1, d.keyword.text)]

variable {d : Definition}

theorem WellFormed.head_takes (formed : d.WellFormed) {rest : List Char} (ends : EndsLine rest) :
    head.Prefers d.lead (d.signature ++ rest) d.kept := by
  obtain ⟨c, letters, spelled⟩ := List.exists_cons_of_ne_nil formed.named
  have plain : isBlank c = false := isBlank_of_isWord (formed.word c (by simp [spelled]))
  have stops : ∀ c, (d.signature ++ rest).head? = some c → isWord c = false := by
    intro c first
    cases signature : d.signature with
    | nil =>
      rw [signature, List.nil_append] at first
      rw [ends c first]
      decide
    | cons e more =>
      rw [signature] at first
      exact formed.apart c (signature ▸ first)
  have gap : blanks1.Prefers [' '] (d.name ++ (d.signature ++ rest)) [] :=
    prefers_space (Nat.le_refl 1) (by rw [spelled]; rfl) plain
  exact ((keyword_takes d.keyword _).keep 1).both (gap.lead (prefers_name formed.named formed.word stops))

end Definition

/-! Outlines: definitions and the lines between them. -/

/-- A line between definitions: a blank one, or one that is not indented and starts neither a header nor a
decorator. -/
structure IsFiller (line : List Char) : Prop where
  single : '\n' ∉ line
  flush : allBlank line = true ∨
    indentWidth line = 0 ∧ line.head? ≠ some '@' ∧ ∀ w ∈ openers, ¬ w <+: line

inductive Part where
  | filler (line : List Char)
  | definition (d : Definition)
  deriving DecidableEq, Repr

namespace Part

def rows : Part → List (List Char)
  | filler line => [line]
  | definition d => d.rows

def definition? : Part → Option Definition
  | filler _ => none
  | definition d => some d

def WellFormed : Part → Prop
  | filler line => IsFiller line
  | definition d => d.WellFormed

end Part

def source (parts : List Part) : List Char := joinLines (parts.flatMap Part.rows)

section Lines

variable {d : Definition} {line : List Char} {part : Part}

theorem head_of_allBlank {c : Char} (blank : allBlank line = true) (first : line.head? = some c) :
    isBlank c = true := by
  obtain ⟨rest, rfl⟩ := List.head?_eq_some_iff.1 first
  exact List.all_eq_true.1 blank c List.mem_cons_self

theorem IsFiller.passes (filler : IsFiller line) : head.Passes line := by
  rcases filler.flush with blank | ⟨_, _, other⟩
  · apply passes_of_head filler.single
    exact fun c first => .inl (head_of_allBlank blank first)
  · exact passes_of_not_opener filler.single other

theorem passes_nil : head.Passes [] := passes_of_head List.not_mem_nil fun _ first => nomatch first

theorem Definition.WellFormed.head_of_mem_body (formed : d.WellFormed) (member : line ∈ d.body) {c : Char}
    (first : line.head? = some c) : isBlank c = true := by
  obtain ⟨width, positive, whole⟩ := formed.indented
  rcases whole.deep line member with blank | deep
  · exact head_of_allBlank blank first
  · exact blank_of_indentWidth first (Nat.le_trans positive deep)

theorem Definition.WellFormed.passes_decorator (formed : d.WellFormed) (member : line ∈ d.decorators) :
    head.Passes line := by
  apply passes_of_head (formed.single line (List.mem_append_left _ member))
  intro c first
  rw [formed.decorated line member] at first
  exact .inr (Option.some.inj first).symm

theorem Definition.WellFormed.passes_body (formed : d.WellFormed) (member : line ∈ d.body) : head.Passes line := by
  apply passes_of_head
  · exact formed.single line (List.mem_append_right _ (List.mem_cons_of_mem _ member))
  · exact fun c first => .inl (formed.head_of_mem_body member first)

namespace Part

theorem rows_ne_nil (part : Part) : part.rows ≠ [] := by
  cases part with
  | filler line => exact List.cons_ne_nil _ _
  | definition d => simp [rows, Definition.rows]

theorem WellFormed.single (formed : part.WellFormed) : ∀ line ∈ part.rows, '\n' ∉ line := by
  cases part with
  | filler line =>
    have filler : IsFiller line := formed
    simpa [rows] using filler.single
  | definition d =>
    have own : d.WellFormed := formed
    exact own.single

theorem WellFormed.bare (formed : part.WellFormed) (above : List (List Char)) :
    ∀ line, (above ++ part.rows).getLast? = some line → line.head? ≠ some '@' := by
  intro line last
  rw [List.getLast?_append_of_ne_nil _ part.rows_ne_nil] at last
  have sign : isBlank '@' = false := by decide
  cases part with
  | filler own =>
    obtain rfl : own = line := Option.some.inj last
    have filler : IsFiller own := formed
    rcases filler.flush with blank | ⟨_, other, _⟩
    · intro first
      rw [head_of_allBlank blank first] at sign
      contradiction
    · exact other
  | definition d =>
    have own : d.WellFormed := formed
    obtain ⟨width, _, whole⟩ := own.indented
    obtain ⟨front, final, rows, member, _⟩ := Definition.exists_body whole
    have same : final = line := by
      rw [Part.rows, rows, List.getLast?_concat] at last
      exact Option.some.inj last
    intro first
    rw [own.head_of_mem_body (same ▸ member) first] at sign
    contradiction

theorem WellFormed.opens (formed : part.WellFormed) :
    ∃ first more, part.rows = first :: more ∧
      (allBlank first = true ∧ more = [] ∨ allBlank first = false ∧ indentWidth first = 0) := by
  cases part with
  | filler line =>
    have filler : IsFiller line := formed
    refine ⟨line, [], rfl, ?_⟩
    cases blank : allBlank line with
    | true => exact .inl ⟨rfl, rfl⟩
    | false =>
      rcases filler.flush with other | ⟨flush, _⟩
      · rw [blank] at other
        contradiction
      · exact .inr ⟨rfl, flush⟩
  | definition d =>
    have own : d.WellFormed := formed
    obtain ⟨first, more, c, opens, start, inked⟩ := own.opens
    refine ⟨first, more, opens, .inr ⟨?_, indentWidth_of_inked start inked⟩⟩
    rw [Bool.eq_false_iff]
    intro blank
    rw [head_of_allBlank blank start] at inked
    contradiction

end Part

theorem shallow_rows {parts : List Part} (formed : ∀ part ∈ parts, part.WellFormed) {width : Nat}
    (positive : 1 ≤ width) : Shallow width (parts.flatMap Part.rows) := by
  induction parts with
  | nil =>
    intro line found
    contradiction
  | cons part more ih =>
    obtain ⟨own, others⟩ := List.forall_mem_cons.1 formed
    obtain ⟨first, rest, opens, blank | ⟨inked, flush⟩⟩ := own.opens
    · obtain ⟨blank, rfl⟩ := blank
      intro line found
      apply ih others line
      rw [List.flatMap_cons, opens, List.singleton_append, List.find?_cons_of_neg (by simp [blank])] at found
      exact found
    · intro line found
      rw [List.flatMap_cons, opens, List.cons_append, List.find?_cons_of_pos (by simp [inked])] at found
      rw [← Option.some.inj found, flush]
      exact positive

end Lines

/-! The search through an outline. -/

/-- What is found of a part whose text starts at an offset: the header of a definition, behind its decorators. -/
def Part.heads (offset : Nat) : Part → List Found
  | .filler _ => []
  | .definition d =>
    let start := offset + (linesAbove d.decorators).length
    [⟨start, start + d.lead.length, d.kept⟩]

def headsFrom : (offset : Nat) → List Part → List Found
  | _, [] => []
  | offset, part :: more => part.heads offset ++ headsFrom (offset + (linesAbove part.rows).length) more

section Find

variable {limit : Nat} {found : List Found} {previous : Option Char} {rest : List Char}

theorem Definition.WellFormed.findFrom_text {d : Definition} (formed : d.WellFormed) (offset : Nat)
    (start : StartsLine previous) (ends : EndsLine rest) :
    findFrom definitionHead limit 0 offset previous found (d.text ++ rest) =
      findFrom definitionHead limit 0 (offset + d.text.length) (lastOr d.text previous)
        ((Part.definition d).heads offset ++ found) rest := by
  have text : d.text = linesAbove d.decorators ++ (d.header ++ linesBelow d.body) := joinLines_around ..
  have single : '\n' ∉ d.lead ++ d.signature := by
    rw [← d.header_eq]
    exact formed.single d.header (by simp [Definition.rows])
  have below : EndsLine (linesBelow d.body ++ rest) := endsLine_linesBelow d.body ends
  have lead : d.lead ≠ [] := by simp [Definition.lead]
  rw [text, definitionHead_eq, List.append_assoc,
    findFrom_linesAbove passes_nil fun line member => formed.passes_decorator member, d.header_eq, List.append_assoc,
    findFrom_headLine (formed.head_takes below) lead single _ (startsLine_linesAbove _ start),
    findFrom_linesBelow passes_nil (fun line member => formed.passes_body member) _ _ ends]
  simp only [Part.heads, lastOr_append, List.length_append, List.singleton_append, Nat.add_assoc]

theorem findFrom_part {part : Part} (formed : part.WellFormed) (offset : Nat) (start : StartsLine previous)
    (ends : EndsLine rest) :
    findFrom definitionHead limit 0 offset previous found (joinLines part.rows ++ rest) =
      findFrom definitionHead limit 0 (offset + (joinLines part.rows).length) (lastOr (joinLines part.rows) previous)
        ((part.heads offset).reverse ++ found) rest := by
  cases part with
  | filler line =>
    have filler : IsFiller line := formed
    have whole : joinLines (Part.filler line).rows = line := by
      rw [Part.rows, joinLines_cons, linesBelow, List.flatMap_nil, List.append_nil]
    rw [whole]
    exact findFrom_line filler.passes ends offset previous
  | definition d =>
    have own : d.WellFormed := formed
    exact own.findFrom_text offset start ends

theorem findFrom_source {parts : List Part} (formed : ∀ part ∈ parts, part.WellFormed) (offset : Nat)
    (start : StartsLine previous) :
    findFrom definitionHead limit 0 offset previous found (source parts) = found.reverse ++ headsFrom offset parts := by
  induction parts generalizing offset previous found with
  | nil => simp [source, joinLines, findFrom, headsFrom]
  | cons part more ih =>
    obtain ⟨first, others⟩ := List.forall_mem_cons.1 formed
    by_cases last : more = []
    · have whole : source [part] = joinLines part.rows ++ [] := by simp [source]
      subst last
      rw [whole, findFrom_part first offset start endsLine_nil]
      simp [findFrom, headsFrom]
    · have below : more.flatMap Part.rows ≠ [] := by
        obtain ⟨next, rest, rfl⟩ := List.exists_cons_of_ne_nil last
        simp [Part.rows_ne_nil]
      have whole : source (part :: more) = joinLines part.rows ++ '\n' :: source more := by
        rw [source, List.flatMap_cons, joinLines_append part.rows_ne_nil below]
        rfl
      have newline : StartsLine (some '\n') := fun c same => (Option.some.inj same).symm
      rw [whole, findFrom_part first offset start (endsLine_newline _), definitionHead_eq, findFrom_newline passes_nil,
        ← definitionHead_eq, ih others _ newline, headsFrom, linesAbove_eq part.rows_ne_nil]
      simp [Nat.add_assoc]

end Find

section Blocks

variable {file : File} {above : List (List Char)}

theorem count_above {header : List Char} {below : List (List Char)}
    (stands : lines file.source = above ++ header :: below) :
    (file.source.take (linesAbove above).length).count '\n' = above.length := by
  have single : ∀ line ∈ above, '\n' ∉ line := by
    intro line member
    have inside : line ∈ lines file.source := by
      rw [stands]
      exact List.mem_append_left _ member
    exact newline_notMem_of_mem_lines inside
  rw [← joinLines_lines file.source, stands, joinLines_around, List.take_left, count_linesAbove single]

theorem filterMap_heads {part : Part} {below : List (List Char)} (formed : part.WellFormed)
    (bare : ∀ line, above.getLast? = some line → line.head? ≠ some '@')
    (stands : lines file.source = above ++ (part.rows ++ below))
    (shallow : ∀ width, 1 ≤ width → Shallow width below) :
    (part.heads (linesAbove above).length).filterMap (bareBlock? file) =
      (([part].filterMap Part.definition?).filter Definition.isKept).map
        (Definition.block file.path file.language) := by
  cases part with
  | filler line => rfl
  | definition d =>
    have own : d.WellFormed := formed
    have around : lines file.source = (above ++ d.decorators) ++ d.header :: (d.body ++ below) := by
      rw [stands, Part.rows, Definition.rows]
      simp
    have start := count_above around
    rw [linesAbove_append, List.length_append] at start
    let m : Found := ⟨(linesAbove above).length + (linesAbove d.decorators).length,
      (linesAbove above).length + (linesAbove d.decorators).length + d.lead.length, d.kept⟩
    have cut : bareBlock? file m = if d.isKept then some (d.block file.path file.language) else none :=
      bareBlock?_around own stands bare shallow start rfl rfl
    have heads : (Part.definition d).heads (linesAbove above).length = [m] := rfl
    have alone : [Part.definition d].filterMap Part.definition? = [d] := rfl
    rw [heads, alone]
    by_cases kept : d.isKept = true
    · rw [if_pos kept] at cut
      rw [List.filterMap_cons_some cut, List.filter_cons_of_pos kept]
      rfl
    · rw [if_neg kept] at cut
      rw [List.filterMap_cons_none cut, List.filter_cons_of_neg kept]
      rfl

theorem filterMap_headsFrom {parts : List Part} (formed : ∀ part ∈ parts, part.WellFormed)
    (bare : ∀ line, above.getLast? = some line → line.head? ≠ some '@')
    (stands : lines file.source = above ++ parts.flatMap Part.rows) :
    (headsFrom (linesAbove above).length parts).filterMap (bareBlock? file) =
      ((parts.filterMap Part.definition?).filter Definition.isKept).map (Definition.block file.path file.language) := by
  -- on the parts; those already passed stand above the rest of them
  induction parts generalizing above with
  | nil => rfl
  | cons part more ih =>
    obtain ⟨first, others⟩ := List.forall_mem_cons.1 formed
    have here := filterMap_heads first bare stands fun width positive => shallow_rows others positive
    have next := ih others (first.bare above) (by rw [stands, List.flatMap_cons, List.append_assoc])
    rw [linesAbove_append, List.length_append] at next
    rw [headsFrom, List.filterMap_append, here, next, ← List.map_append, ← List.filter_append, ← List.filterMap_append]
    rfl

end Blocks

/-- A source of definitions, with other lines between them, gives the blocks of the classes and of the functions that
are not private, as long as they are within the lines allowed, in their order and as they stand. -/
theorem blocks_outline (path language : String) {parts : List Part} (formed : ∀ part ∈ parts, part.WellFormed) :
    (blocks ⟨path, source parts, language⟩).map Block.bare =
      ((parts.filterMap Part.definition?).filter Definition.isKept).map (Definition.block path language) := by
  have found : definitionHead.findAll (source parts) = headsFrom 0 parts :=
    findFrom_source formed 0 fun c same => nomatch same
  rw [blocks, found, List.map_filterMap]
  cases parts with
  | nil => rfl
  | cons part more =>
    have bare : ∀ line, ([] : List (List Char)).getLast? = some line → line.head? ≠ some '@' := by
      intro line last
      contradiction
    have stands : lines (source (part :: more)) = [] ++ (part :: more).flatMap Part.rows := by
      apply lines_joinLines
      · simp [Part.rows_ne_nil]
      · intro line member
        obtain ⟨own, inside, here⟩ := List.mem_flatMap.1 member
        exact (formed own inside).single line here
    exact filterMap_headsFrom formed bare stands

namespace Definition

def nesting : Definition where
  decorators := ["@app".toList]
  keyword := .coroutine
  name := "get".toList
  signature := "(x):".toList
  body := ["  def f():".toList, [], "    y".toList, "  z ".toList]

def hidden : Definition where
  decorators := []
  keyword := .function
  name := "_f".toList
  signature := "():".toList
  body := [" 1".toList]

def boxed : Definition where
  decorators := []
  keyword := .concept
  name := "_B".toList
  signature := [':']
  body := ["\tx".toList]

theorem wellFormed_nesting : nesting.WellFormed where
  decorated := List.forall_mem_singleton.2 rfl
  named := by decide
  word := List.all_eq_true.1 (by decide)
  apart := by
    intro c first
    obtain rfl : '(' = c := Option.some.inj first
    decide
  uncommented := by decide
  closed := by decide
  indented := by
    refine ⟨2, by decide, ⟨"  def f():".toList, _, rfl, by decide, by decide⟩, ?_, ?_⟩
    · simp only [nesting, List.forall_mem_cons]
      exact ⟨.inr (by decide), .inl (by decide), .inr (by decide), .inr (by decide), by simp⟩
    · intro line last
      obtain rfl : "  z ".toList = line := Option.some.inj last
      decide
  single := by decide

theorem wellFormed_hidden : hidden.WellFormed where
  decorated := by simp [hidden]
  named := by decide
  word := List.all_eq_true.1 (by decide)
  apart := by
    intro c first
    obtain rfl : '(' = c := Option.some.inj first
    decide
  uncommented := by decide
  closed := by decide
  indented := by
    refine ⟨1, by decide, ⟨" 1".toList, _, rfl, by decide, by decide⟩, ?_, ?_⟩
    · exact List.forall_mem_singleton.2 (.inr (by decide))
    · intro line last
      obtain rfl : " 1".toList = line := Option.some.inj last
      decide
  single := by decide

theorem wellFormed_boxed : boxed.WellFormed where
  decorated := by simp [boxed]
  named := by decide
  word := List.all_eq_true.1 (by decide)
  apart := by
    intro c first
    obtain rfl : ':' = c := Option.some.inj first
    decide
  uncommented := by decide
  closed := by decide
  indented := by
    refine ⟨1, by decide, ⟨"\tx".toList, _, rfl, by decide, by decide⟩, ?_, ?_⟩
    · exact List.forall_mem_singleton.2 (.inr (by decide))
    · intro line last
      obtain rfl : "\tx".toList = line := Option.some.inj last
      decide
  single := by decide

end Definition

def mixedParts : List Part :=
  [.definition .nesting, .filler "# def".toList, .filler [], .definition .hidden, .definition .boxed]

theorem private_function_left_out :
    (∀ part ∈ mixedParts, part.WellFormed) ∧
      (blocks ⟨"a.py", source mixedParts, "python"⟩).map Block.bare =
        [Definition.nesting.block "a.py" "python", Definition.boxed.block "a.py" "python"] := by
  have comment : IsFiller "# def".toList := ⟨by decide, .inr (by decide)⟩
  have blank : IsFiller [] := ⟨by decide, .inl rfl⟩
  have formed : ∀ part ∈ mixedParts, part.WellFormed := by
    simp only [mixedParts, List.forall_mem_cons]
    exact ⟨Definition.wellFormed_nesting, comment, blank, Definition.wellFormed_hidden, Definition.wellFormed_boxed,
      by simp⟩
  have kept : (mixedParts.filterMap Part.definition?).filter Definition.isKept = [.nesting, .boxed] := by decide
  have whole := blocks_outline "a.py" "python" formed
  rw [kept] at whole
  exact ⟨formed, whole⟩

end CodeDeck.Extract.Indented
