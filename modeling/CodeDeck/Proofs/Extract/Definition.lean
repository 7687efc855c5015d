import CodeDeck.Extract.Indented
import CodeDeck.Proofs.Scan.Indent
import CodeDeck.Proofs.Text.Word

/-! Functions and classes by indentation, and the block that is cut from the lines of one: where a definition stands
in a file, it is found from its decorators through the last line of its body, whatever else stands around it. -/

namespace CodeDeck

open CodeDeck.Text

def Block.bare (b : Block) : Block := { b with docText := none }

theorem Block.ofCode?_of_limit {kind : BlockKind} {limit : Nat} (limited : kind.lineLimit? = some limit)
    {code : List Char} (inked : trim code ≠ []) (name : List Char) (filePath language : String)
    (doc : Option (List Char)) :
    (ofCode? name kind code filePath language doc).map bare =
      if countLines (trim code) ≤ limit then
        some ⟨String.ofList name, kind, String.ofList (trim code), filePath, language, none, countLines (trim code)⟩
      else none := by
  rw [ofCode?, if_neg inked, limited]
  dsimp only
  by_cases short : countLines (trim code) ≤ limit
  · rw [if_neg (Nat.not_lt.2 short), if_pos short]
    rfl
  · rw [if_pos (Nat.not_le.1 short), if_neg short]
    rfl

namespace Extract.Indented

open CodeDeck.Pattern CodeDeck.Scan

/-! Definitions and their text. -/

inductive Keyword where
  | function | coroutine | concept
  deriving DecidableEq, Repr

namespace Keyword

def text : Keyword → List Char
  | function => "def".toList
  | coroutine => "async def".toList
  | concept => "class".toList

def kind : Keyword → BlockKind
  | concept => .concept
  | _ => .function

def ceiling : Keyword → Nat
  | concept => 50
  | _ => 40

theorem lineLimit?_kind (k : Keyword) : k.kind.lineLimit? = some k.ceiling := by cases k <;> rfl

theorem exists_text (k : Keyword) : ∃ c rest, k.text = c :: rest ∧ isBlank c = false ∧ c ≠ '@' := by
  cases k with
  | function => exact ⟨'d', "ef".toList, rfl, by decide⟩
  | coroutine => exact ⟨'a', "sync def".toList, rfl, by decide⟩
  | concept => exact ⟨'c', "lass".toList, rfl, by decide⟩

end Keyword

structure Definition where
  decorators : List (List Char)
  keyword : Keyword
  name : List Char
  signature : List Char
  body : List (List Char)
  deriving DecidableEq, Repr

namespace Definition

def header (d : Definition) : List Char := d.keyword.text ++ ' ' :: (d.name ++ d.signature)

def rows (d : Definition) : List (List Char) := d.decorators ++ d.header :: d.body

def text (d : Definition) : List Char := joinLines d.rows

/-- Decorators, a header that is closed on its line, and a body by indentation. -/
structure WellFormed (d : Definition) : Prop where
  decorated : ∀ line ∈ d.decorators, line.head? = some '@'
  named : d.name ≠ []
  word : ∀ c ∈ d.name, isWord c = true
  apart : ∀ c, d.signature.head? = some c → isWord c = false
  uncommented : '#' ∉ d.header
  closed : d.header.count '(' + d.header.count '[' ≤ d.header.count ')' + d.header.count ']'
  indented : ∃ width, 1 ≤ width ∧ IsBody width d.body
  single : ∀ line ∈ d.rows, '\n' ∉ line

/-- Classes are learned from whatever their names, and functions unless an underscore marks them as private; the
constructor is not private. -/
def isOpen (d : Definition) : Bool :=
  d.keyword == .concept || d.name.head? != some '_' || d.name == "__init__".toList

def isKept (d : Definition) : Bool := d.isOpen && d.rows.length ≤ d.keyword.ceiling

def block (path language : String) (d : Definition) : Block where
  name := String.ofList d.name
  kind := d.keyword.kind
  code := String.ofList (trimEnd d.text)
  filePath := path
  language := language
  docText := none
  lineCount := d.rows.length

variable {d : Definition}

theorem not_isOpen (d : Definition) : (!(d.keyword == .concept) && isPrivate d.name) = !d.isOpen := by
  simp only [isPrivate, isOpen, bne, Bool.not_or, Bool.not_not, Bool.and_assoc]

theorem head?_header (d : Definition) : ∃ c, d.header.head? = some c ∧ isBlank c = false ∧ c ≠ '@' := by
  obtain ⟨c, rest, starts, inked, other⟩ := d.keyword.exists_text
  refine ⟨c, ?_, inked, other⟩
  rw [header, starts]
  rfl

theorem indentWidth_header (d : Definition) : indentWidth d.header = 0 := by
  obtain ⟨c, first, inked, _⟩ := d.head?_header
  exact indentWidth_of_inked first inked

theorem WellFormed.bracketBalance_header (formed : d.WellFormed) : bracketBalance d.header ≤ 0 := by
  have code : d.header.takeWhile (· != '#') = d.header := by
    rw [List.takeWhile_eq_self_iff]
    intro c member
    rw [bne_iff_ne]
    rintro rfl
    exact formed.uncommented member
  have closed := formed.closed
  rw [bracketBalance, code]
  omega

theorem exists_body {width : Nat} (whole : IsBody width d.body) :
    ∃ front last, d.rows = front ++ [last] ∧ last ∈ d.body ∧ allBlank last = false := by
  obtain ⟨first, more, opens, _⟩ := whole.opens
  have some : d.body ≠ [] := by simp [opens]
  refine ⟨d.decorators ++ d.header :: d.body.dropLast, d.body.getLast some, ?_, List.getLast_mem some, ?_⟩
  · rw [rows, List.append_assoc, List.cons_append, List.dropLast_append_getLast some]
  · exact whole.inked _ (List.getLast?_eq_some_getLast some)

theorem WellFormed.opens (formed : d.WellFormed) :
    ∃ first more c, d.rows = first :: more ∧ first.head? = some c ∧ isBlank c = false := by
  cases above : d.decorators with
  | nil =>
    obtain ⟨c, first, inked, _⟩ := d.head?_header
    exact ⟨d.header, d.body, c, by rw [rows, above, List.nil_append], first, inked⟩
  | cons line more =>
    have first := formed.decorated line (by simp [above])
    exact ⟨line, more ++ d.header :: d.body, '@', by rw [rows, above, List.cons_append], first, by decide⟩

theorem WellFormed.trim_text (formed : d.WellFormed) : trim d.text = trimEnd d.text := by
  obtain ⟨first, more, c, opens, start, inked⟩ := formed.opens
  obtain ⟨rest, rfl⟩ := List.head?_eq_some_iff.1 start
  rw [trim, trimStart_of_inked]
  intro e front
  rw [text, opens, joinLines_cons] at front
  obtain rfl : c = e := Option.some.inj front
  exact inked

theorem WellFormed.countLines_text (formed : d.WellFormed) : countLines (trimEnd d.text) = d.rows.length := by
  obtain ⟨width, _, whole⟩ := formed.indented
  obtain ⟨front, last, rows, _, inked⟩ := exists_body whole
  have single := formed.single
  rw [text, rows]
  rw [rows] at single
  exact countLines_trimEnd_joinLines single inked

theorem WellFormed.trim_ne_nil (formed : d.WellFormed) : trim d.text ≠ [] := by
  intro empty
  have count := formed.countLines_text
  obtain ⟨width, _, whole⟩ := formed.indented
  obtain ⟨first, more, opens, _⟩ := whole.opens
  rw [← formed.trim_text, empty, rows, opens] at count
  simp only [countLines, List.count_nil, List.length_append, List.length_cons] at count
  omega

end Definition

section Cut

variable {file : File} {above below : List (List Char)} {d : Definition}

def bareBlock? (file : File) (m : Found) : Option Block :=
  (definitionBlock? file (lines file.source) m).map Block.bare

theorem decoratorCount_around (formed : d.WellFormed)
    (bare : ∀ line, above.getLast? = some line → line.head? ≠ some '@') :
    decoratorCount (above ++ d.decorators).reverse = d.decorators.length := by
  have own : ∀ line ∈ d.decorators.reverse, (line.head? == some '@') = true := by
    intro line member
    rw [beq_iff_eq]
    exact formed.decorated line (List.mem_reverse.1 member)
  have others : above.reverse.takeWhile (fun line => line.head? == some '@') = [] := by
    rw [← List.head?_reverse] at bare
    cases back : above.reverse with
    | nil => rfl
    | cons line rest =>
      have plain := bare line (by rw [back]; rfl)
      exact List.takeWhile_cons_of_neg (by simpa using plain)
  rw [decoratorCount, List.reverse_append, List.takeWhile_append_of_pos own, others, List.append_nil,
    List.length_reverse]

theorem bareBlock?_around (formed : d.WellFormed) (stands : lines file.source = above ++ (d.rows ++ below))
    (bare : ∀ line, above.getLast? = some line → line.head? ≠ some '@')
    (shallow : ∀ width, 1 ≤ width → Shallow width below) {m : Found}
    (start : (file.source.take m.start).count '\n' = (above ++ d.decorators).length)
    (keyword : m.get 1 = d.keyword.text) (name : m.get 2 = d.name) :
    bareBlock? file m = if d.isKept then some (d.block file.path file.language) else none := by
  obtain ⟨width, positive, whole⟩ := formed.indented
  have around : lines file.source = (above ++ d.decorators) ++ d.header :: (d.body ++ below) := by
    rw [stands, Definition.rows]
    simp only [List.append_assoc, List.cons_append]
  have isClass : (m.get 1 == "class".toList) = (d.keyword == .concept) := by
    rw [keyword]
    cases d.keyword <;> decide
  have body : indentBlock? (lines file.source) (above ++ d.decorators).length =
      some (joinLines (d.header :: d.body)) := by
    rw [around]
    apply indentBlock?_around formed.bracketBalance_header whole _ (shallow width positive)
    rw [d.indentWidth_header]
    exact positive
  have count : decoratorCount ((lines file.source).take (above ++ d.decorators).length).reverse =
      d.decorators.length := by
    rw [around, List.take_left]
    exact decoratorCount_around formed bare
  have decorators : ((lines file.source).drop ((above ++ d.decorators).length - d.decorators.length)).take
      d.decorators.length = d.decorators := by
    rw [around, List.length_append, Nat.add_sub_cancel, List.append_assoc, List.drop_left, List.take_left]
  have code : joinLines (d.decorators ++ [joinLines (d.header :: d.body)]) = d.text :=
    joinLines_concat _ (List.cons_ne_nil _ _)
  simp only [bareBlock?, definitionBlock?, isClass, name, d.not_isOpen, start, body, count, decorators, code,
    Option.bind_eq_bind, Option.bind_some]
  cases open_ : d.isOpen with
  | false => simp [Definition.isKept, open_]
  | true =>
    have kind : (if (d.keyword == .concept) = true then BlockKind.concept else .function) = d.keyword.kind := by
      cases d.keyword <;> rfl
    simp only [kind, File.block?, Bool.not_true, Bool.false_eq_true, if_false]
    rw [Block.ofCode?_of_limit d.keyword.lineLimit?_kind formed.trim_ne_nil, formed.trim_text, formed.countLines_text]
    simp [Definition.isKept, open_, Definition.block]

end Cut

end Extract.Indented

end CodeDeck
