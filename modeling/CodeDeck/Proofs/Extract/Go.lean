import CodeDeck.Proofs.Extract.Declaration
import CodeDeck.Proofs.Extract.Grammar
import CodeDeck.Proofs.Pattern.Clear
import CodeDeck.Proofs.Scan.Body
import Mathlib.Algebra.Group.Nat.Even

/-! Exported functions of Go, and the block that is cut from the text of one: the whole function, unless its result
type has a brace of its own, at which the block then ends. -/

namespace CodeDeck.Extract.Go

open CodeDeck.Text CodeDeck.Pattern CodeDeck.Scan

/-! Raw strings. A scan takes a backslash in one for an escape. -/

def finalBackslashes (s : List Char) : Nat := (s.reverse.takeWhile (· == '\\')).length

theorem finalBackslashes_cons (c : Char) (s : List Char) :
    finalBackslashes (c :: s) =
      if c = '\\' ∧ finalBackslashes s = s.length then s.length + 1 else finalBackslashes s := by
  have all : (s.reverse.takeWhile (· == '\\')).length = s.reverse.length ↔ finalBackslashes s = s.length := by
    rw [List.length_reverse, finalBackslashes]
  rw [finalBackslashes, List.reverse_cons, List.takeWhile_append]
  by_cases whole : finalBackslashes s = s.length
  · rw [if_pos (all.2 whole)]
    by_cases escape : c = '\\'
    · simp [escape, whole]
    · simp [escape, whole]
  · rw [if_neg (mt all.1 whole), if_neg (fun both => whole both.2)]
    rfl

theorem finalBackslashes_le (s : List Char) : finalBackslashes s ≤ s.length := by
  have bound := (List.takeWhile_prefix (· == '\\') : s.reverse.takeWhile (· == '\\') <+: s.reverse).length_le
  rwa [List.length_reverse] at bound

/-- A backslash and the character that it takes leave the number of the others as even or odd as it is. -/
theorem finalBackslashes_escape (c : Char) (s : List Char) :
    finalBackslashes ('\\' :: c :: s) % 2 = finalBackslashes s % 2 := by
  have bound := finalBackslashes_le s
  rw [finalBackslashes_cons, finalBackslashes_cons c, List.length_cons]
  by_cases all : c = '\\' ∧ finalBackslashes s = s.length
  · rw [if_pos all, if_pos ⟨rfl, rfl⟩, all.2]
    omega
  · have less : finalBackslashes s ≠ s.length + 1 := by omega
    rw [if_neg all, if_neg (fun both => less both.2)]

theorem quoted_of_even {quote : Char} : ∀ {s : List Char}, quote ∉ s → Even (finalBackslashes s) → Quoted quote s
  | [], _, _ => .nil
  | [c], absent, even => by
    have single : c ≠ '\\' := by
      rintro rfl
      exact absurd even (by decide)
    exact .plain (Ne.symm (List.ne_of_not_mem_cons absent)) single .nil
  | c :: d :: rest, absent, even => by
    rw [List.mem_cons, not_or] at absent
    by_cases escape : c = '\\'
    · subst escape
      rw [Nat.even_iff, finalBackslashes_escape, ← Nat.even_iff] at even
      exact .escape (quoted_of_even (List.not_mem_of_not_mem_cons absent.2) even)
    · rw [finalBackslashes_cons, if_neg (fun both => escape both.1)] at even
      exact .plain (Ne.symm absent.1) escape (quoted_of_even absent.2 even)

/-! Bodies and result types. -/

/-- Go tokens in which braces outside literals and comments come in pairs. What stands in a raw string is restricted
by `raw`. -/
inductive Tokens (raw : List Char → Prop) : List Char → Prop
  | nil : Tokens raw []
  | plain {c : Char} {rest : List Char} (free : c ≠ '\x7b' ∧ c ≠ '\x7d' ∧ c ∉ defaultQuotes)
      (alone : c = '/' → rest.head? ≠ some '/' ∧ rest.head? ≠ some '*') (behind : Tokens raw rest) :
      Tokens raw (c :: rest)
  | interpreted {inside rest : List Char} (quoted : Quoted '"' inside) (behind : Tokens raw rest) :
      Tokens raw ('"' :: (inside ++ '"' :: rest))
  | rune {inside rest : List Char} (quoted : Quoted '\'' inside) (behind : Tokens raw rest) :
      Tokens raw ('\'' :: (inside ++ '\'' :: rest))
  | raw {inside rest : List Char} (open_ : '\x60' ∉ inside) (allowed : raw inside) (behind : Tokens raw rest) :
      Tokens raw ('\x60' :: (inside ++ '\x60' :: rest))
  | lineComment {inside rest : List Char} (oneLine : '\n' ∉ inside) (behind : Tokens raw rest) :
      Tokens raw ('/' :: '/' :: (inside ++ '\n' :: rest))
  | blockComment {inside rest : List Char} (open_ : ¬ ['*', '/'] <:+: inside) (behind : Tokens raw rest) :
      Tokens raw ('/' :: '*' :: (inside ++ '*' :: '/' :: rest))
  | nested {inside rest : List Char} (within : Tokens raw inside) (behind : Tokens raw rest) :
      Tokens raw ('\x7b' :: (inside ++ '\x7d' :: rest))

def isOther (c : Char) : Bool := decide (c ∉ '\x7b' :: '\x7d' :: '/' :: defaultQuotes)

theorem isOther_iff {c : Char} :
    isOther c = true ↔ c ≠ '\x7b' ∧ c ≠ '\x7d' ∧ c ≠ '/' ∧ c ∉ defaultQuotes := by
  simp only [isOther, decide_eq_true_iff, List.mem_cons, not_or, ne_eq]

theorem Tokens.run {raw : List Char → Prop} {lead rest : List Char} (others : ∀ c ∈ lead, isOther c = true)
    (behind : Tokens raw rest) : Tokens raw (lead ++ rest) := by
  induction lead with
  | nil => exact behind
  | cons c more ih =>
    obtain ⟨other, others⟩ := List.forall_mem_cons.1 others
    obtain ⟨opens, closes, slash, unquoted⟩ := isOther_iff.1 other
    exact .plain ⟨opens, closes, unquoted⟩ (absurd · slash) (ih others)

theorem Tokens.of_others {raw : List Char → Prop} {s : List Char} (others : ∀ c ∈ s, isOther c = true) :
    Tokens raw s :=
  List.append_nil s ▸ Tokens.run others .nil

theorem Tokens.balanced {s : List Char} (tokens : Tokens (fun inside => Even (finalBackslashes inside)) s) :
    Balanced braces s := by
  induction tokens with
  | nil => exact .nil
  | plain free alone _ ih => exact .plain free (fun _ => alone) ih
  | interpreted quoted _ ih => exact .literal (by decide) quoted ih
  | rune quoted _ ih => exact .literal (by decide) quoted ih
  | raw open_ even _ ih => exact .literal (by decide) (quoted_of_even open_ even) ih
  | lineComment oneLine _ ih => exact .lineComment rfl oneLine ih
  | blockComment open_ _ ih => exact .blockComment rfl open_ ih
  | nested _ _ ih ih' => exact .nested (b := braces) ih ih'

/-- A result type: text with balanced bodies of structs and interfaces in it. -/
inductive ResultType : List Char → Prop
  | nil : ResultType []
  | plain {c : Char} {rest : List Char} (free : c ≠ '\x7b' ∧ c ≠ '\x7d') (behind : ResultType rest) :
      ResultType (c :: rest)
  | braced {inside rest : List Char} (within : Balanced braces inside) (behind : ResultType rest) :
      ResultType ('\x7b' :: (inside ++ '\x7d' :: rest))

theorem ResultType.run {lead rest : List Char} (others : ∀ c ∈ lead, isOther c = true) (behind : ResultType rest) :
    ResultType (lead ++ rest) := by
  induction lead with
  | nil => exact behind
  | cons c more ih =>
    obtain ⟨other, others⟩ := List.forall_mem_cons.1 others
    obtain ⟨opens, closes, _⟩ := isOther_iff.1 other
    exact .plain ⟨opens, closes⟩ (ih others)

theorem ResultType.of_others {s : List Char} (others : ∀ c ∈ s, isOther c = true) : ResultType s :=
  List.append_nil s ▸ ResultType.run others .nil

theorem ResultType.exists_braced {s : List Char} (type : ResultType s) (member : '\x7b' ∈ s) :
    ∃ lead inside rest, s = lead ++ '\x7b' :: (inside ++ '\x7d' :: rest) ∧ '\x7b' ∉ lead ∧ Balanced braces inside := by
  induction type with
  | nil => exact absurd member List.not_mem_nil
  | @plain c rest free _ ih =>
    have later : '\x7b' ∈ rest := (List.mem_cons.1 member).resolve_left (Ne.symm free.1)
    obtain ⟨lead, inside, behind, rfl, absent, balanced⟩ := ih later
    refine ⟨c :: lead, inside, behind, rfl, ?_, balanced⟩
    rw [List.mem_cons, not_or]
    exact ⟨Ne.symm free.1, absent⟩
  | @braced inside rest within _ _ => exact ⟨[], inside, rest, rfl, List.not_mem_nil, within⟩

/-! Functions and their text. -/

structure Function where
  receiver : Option (List Char)
  name : List Char
  parameters : List Char
  result : List Char
  body : List Char
  deriving DecidableEq, Repr

namespace Function

def receiverText (d : Function) : List Char :=
  match d.receiver with
  | none => []
  | some receiver => '(' :: (receiver ++ [')', ' '])

def head (d : Function) : List Char := "func ".toList ++ (d.receiverText ++ (d.name ++ ['(']))

def signature (d : Function) : List Char := d.head ++ (d.parameters ++ (')' :: d.result))

def text (d : Function) : List Char := d.signature ++ '\x7b' :: (d.body ++ ['\x7d'])

/-- An exported name, balanced parameters, a result on their last line and a body of Go tokens. -/
structure WellFormed (d : Function) : Prop where
  receiver : ∀ receiver, d.receiver = some receiver → ')' ∉ receiver
  exported : d.name.head?.any isCapital = true
  word : ∀ c ∈ d.name, isWord c = true
  parameters : Balanced parens d.parameters
  oneLine : '\n' ∉ d.result
  result : ResultType d.result
  body : Tokens (fun inside => Even (finalBackslashes inside)) d.body
  short : (lines d.text).length ≤ 40

def block (file : File) (start : Nat) (d : Function) : Block where
  name := String.ofList d.name
  kind := .function
  code := String.ofList d.text
  filePath := file.path
  language := file.language
  docText := (Doc.line? file.source start docMarker).map String.ofList
  lineCount := (lines d.text).length

variable {d : Function}

theorem trimmed_text (d : Function) : Trimmed d.text where
  first := by
    intro c first
    obtain rfl : 'f' = c := Option.some.inj first
    decide
  last := by
    intro c last
    have brace : d.text.getLast? = some '\x7d' := by
      rw [text, ← List.cons_append, ← List.append_assoc, List.getLast?_concat]
    obtain rfl : '\x7d' = c := Option.some.inj (brace.symm.trans last)
    decide

/-! What the pattern takes of a function. -/

theorem receiver_takes (formed : d.WellFormed) {rest : List Char} {c : Char} (ahead : rest.head? = some c)
    (inked : isBlank c = false) (other : c ≠ '(') :
    (optional (.both (enclosed '(' ')' (except ')')) blanks)).Prefers d.receiverText rest [] := by
  cases given : d.receiver with
  | none =>
    have absent : ¬ ['('] <+: rest := by
      obtain ⟨behind, rfl⟩ := List.head?_eq_some_iff.1 ahead
      intro start
      exact other (List.cons_prefix_cons.1 start).1.symm
    rw [receiverText, given]
    apply prefers_without
    intro starts
    obtain ⟨a, more, rfl, takes, _⟩ := starts.both
    have opens : (enclosed '(' ')' (except ')')).Starts (a ++ more) := ⟨a, List.prefix_append .., takes⟩
    exact absent opens.opening
  | some receiver =>
    have inside : ∀ c ∈ receiver, except ')' c = true := by
      intro c member
      rw [except, bne_iff_ne]
      rintro rfl
      exact formed.receiver receiver given member
    have parts : d.receiverText = (['('] ++ (receiver ++ [')'])) ++ [' '] := by
      rw [receiverText, given]
      simp
    rw [parts]
    apply Prefers.first
    apply Prefers.lead
    · apply (prefers_text _ _).lead
      apply (prefers_run_before inside (Nat.zero_le _) rfl (by decide)).lead
      exact prefers_text _ _
    · exact prefers_space (by decide) ahead inked

def opening : Pattern :=
  ofList
    [word "func", blanks1, optional (.both (enclosed '(' ')' (except ')')) blanks), exportedName, blanks,
      typeParameters, blanks, word "("]

theorem functionHead_eq : functionHead = .both .lineStart opening := rfl

theorem exportedName_takes {name : List Char} (exported : name.head?.any isCapital = true)
    (word : ∀ c ∈ name, isWord c = true) (rest : List Char) : exportedName.Prefers name ('(' :: rest) [(1, name)] := by
  cases name with
  | nil => contradiction
  | cons c letters =>
    have capital : isCapital c = true := exported
    have inside : ∀ d ∈ letters, isWord d = true := fun d member => word d (List.mem_cons_of_mem _ member)
    apply Prefers.keep
    apply (prefers_one capital _).lead
    exact prefers_run_before inside (Nat.zero_le _) rfl (by decide)

theorem parenthesis_takes (rest : List Char) :
    (Pattern.both blanks (.both typeParameters (.both blanks (word "(")))).Prefers ['('] rest [] := by
  have absent : ¬ ['['] <+: '(' :: rest := by simp
  have taken : (Pattern.both blanks (.both typeParameters (.both blanks (word "(")))).Prefers
      ([] ++ ([] ++ ([] ++ ['(']))) rest [] := by
    apply (prefers_no_blank rfl (by decide)).lead
    apply (prefers_without (mt Starts.opening absent)).lead
    apply (prefers_no_blank rfl (by decide)).lead
    exact prefers_text _ _
  exact taken

theorem head_takes (formed : d.WellFormed) (rest : List Char) : opening.Prefers d.head rest [(1, d.name)] := by
  obtain ⟨c, ahead, inked, other⟩ : ∃ c, (d.name ++ (['('] ++ rest)).head? = some c ∧ isBlank c = false ∧ c ≠ '(' := by
    have word := formed.word
    cases spelled : d.name with
    | nil => simpa [spelled] using formed.exported
    | cons c letters =>
      have letter : isWord c = true := word c (by simp [spelled])
      refine ⟨c, rfl, isBlank_of_isWord letter, ?_⟩
      rintro rfl
      contradiction
  have gap : blanks1.Prefers [' '] (d.receiverText ++ (d.name ++ (['('] ++ rest))) [] := by
    cases given : d.receiver with
    | none =>
      rw [receiverText, given]
      exact prefers_space (Nat.le_refl 1) ahead inked
    | some receiver =>
      rw [receiverText, given]
      exact prefers_space (Nat.le_refl 1) rfl (by decide)
  have parts : d.head = "func".toList ++ ([' '] ++ (d.receiverText ++ (d.name ++ ['(']))) := rfl
  rw [parts]
  apply (prefers_text _ _).lead
  apply Prefers.lead
  · simpa only [List.append_assoc] using gap
  apply Prefers.lead
  · rw [List.append_assoc]
    exact receiver_takes formed ahead inked other
  exact (exportedName_takes formed.exported formed.word rest).both (parenthesis_takes rest)

/-! The block that is cut. -/

def found (d : Function) (start : Nat) : Found := ⟨start, start + d.head.length, [(1, d.name)]⟩

section Cut

variable {file : File} {before front inside behind after : List Char}

theorem functionBlock?_cut (formed : d.WellFormed)
    (stands : file.source =
      before ++ (d.head ++ (d.parameters ++ ')' :: (front ++ '\x7b' :: (inside ++ '\x7d' :: behind)))))
    (absent : '\x7b' ∉ front) (oneLine : '\n' ∉ front) (balanced : Balanced braces inside) :
    functionBlock? file (d.found before.length) =
      file.block? d.name .function (d.head ++ (d.parameters ++ ')' :: front) ++ '\x7b' :: (inside ++ ['\x7d']))
        (Doc.line? file.source before.length docMarker) := by
  have opened : d.head = ("func ".toList ++ (d.receiverText ++ d.name)) ++ ['('] := by
    rw [head]
    simp only [List.append_assoc]
  have parameters : closingParen? file.source (before.length + d.head.length - 1) defaultQuotes =
      some (before ++ (d.head ++ (d.parameters ++ [')']))).length := by
    generalize "func ".toList ++ (d.receiverText ++ d.name) = call at opened
    have closed := closingParen?_balanced formed.parameters (before ++ call)
      (front ++ '\x7b' :: (inside ++ '\x7d' :: behind))
    have length : before.length + d.head.length - 1 = (before ++ call).length := by
      rw [opened]
      simp only [List.length_append, List.length_singleton]
      omega
    rw [length, stands, opened]
    simp only [List.append_assoc, List.singleton_append] at closed ⊢
    rw [closed]
    congr 1
    simp only [List.length_append, List.length_cons, List.length_nil]
    omega
  have body : bodyBrace? file.source (before ++ (d.head ++ (d.parameters ++ [')']))).length [['\n']] =
      some (before.length + (d.head ++ (d.parameters ++ ')' :: front)).length) := by
    have first := bodyBrace?_first absent (List.forall_mem_singleton.2 oneLine)
      (before ++ (d.head ++ (d.parameters ++ [')']))) (inside ++ '\x7d' :: behind)
    rw [stands]
    simp only [List.append_assoc, List.singleton_append, List.map_cons, List.map_nil] at first ⊢
    rw [first]
    congr 1
    simp only [List.length_append, List.length_cons, List.length_nil]
    omega
  have code : braceBlock? file.source before.length
      (before.length + (d.head ++ (d.parameters ++ ')' :: front)).length) defaultQuotes =
        some (d.head ++ (d.parameters ++ ')' :: front) ++ '\x7b' :: (inside ++ ['\x7d'])) := by
    have cut := braceBlock?_balanced balanced before (d.head ++ (d.parameters ++ ')' :: front)) behind
    rw [stands]
    simp only [List.append_assoc, List.cons_append] at cut ⊢
    exact cut
  simp only [functionBlock?, found, Option.bind_eq_bind, parameters, body, code, Option.bind_some]
  rfl

theorem text_append (d : Function) (after : List Char) :
    d.text ++ after =
      d.head ++ (d.parameters ++ ')' :: (d.result ++ '\x7b' :: (d.body ++ '\x7d' :: after))) := by
  rw [text, signature]
  simp only [List.append_assoc, List.cons_append, List.nil_append]

/-- The block of a function is the whole of it just when no brace stands in its result type. -/
theorem functionBlock?_whole_iff (formed : d.WellFormed) (stands : file.source = before ++ (d.text ++ after)) :
    functionBlock? file (d.found before.length) = some (d.block file before.length) ↔ '\x7b' ∉ d.result := by
  constructor
  · -- with a brace in the result, the block ends where this brace is closed, in front of the body
    intro made member
    obtain ⟨lead, inside, rest, same, absent, balanced⟩ := formed.result.exists_braced member
    have oneLine : '\n' ∉ lead := by
      intro inside
      apply formed.oneLine
      rw [same]
      exact List.mem_append_left _ inside
    rw [d.text_append, same] at stands
    simp only [List.append_assoc, List.cons_append] at stands
    rw [functionBlock?_cut formed stands absent oneLine balanced] at made
    have length := Block.length_code_le made
    have whole := congrArg List.length (d.text_append [])
    rw [same] at whole
    simp only [block, String.toList_ofList, List.length_append, List.length_cons, List.length_nil] at length whole
    omega
  · intro absent
    rw [d.text_append] at stands
    rw [functionBlock?_cut formed stands absent formed.oneLine formed.body.balanced]
    have limited : (BlockKind.function, 40) ∈ Block.ceilings := by decide
    have nonempty : d.text ≠ [] := List.cons_ne_nil _ _
    exact Block.ofCode?_trimmed nonempty d.trimmed_text limited formed.short _ _ _ _

end Cut

end Function

/-- Where the line of a function is clear of earlier matches, just its head is found there. The block made of it is the
whole function, through the brace that closes the body, exactly when no brace stands in the result type. -/
theorem function_whole_iff {d : Function} (formed : d.WellFormed) {file : File} {before after : List Char}
    (stands : file.source = before ++ (d.text ++ after)) (start : StartsLine (lastOr before none))
    (clear : Clear functionHead before (d.text ++ after)) :
    (∀ m, m ∈ functionHead.findAll file.source ∧ m.start = before.length ↔ m = d.found before.length) ∧
    (functionBlock? file (d.found before.length) = some (d.block file before.length) ↔ '\x7b' ∉ d.result) ∧
    ('\x7b' ∉ d.result → d.block file before.length ∈ blocks file) := by
  have preferred := Function.head_takes formed
    (d.parameters ++ ')' :: (d.result ++ '\x7b' :: (d.body ++ '\x7d' :: after)))
  have nonempty : d.head ≠ [] := List.cons_ne_nil _ _
  have heads : ∀ m, m ∈ functionHead.findAll file.source ∧ m.start = before.length ↔ m = d.found before.length := by
    rw [d.text_append, Function.functionHead_eq] at clear
    rw [stands, d.text_append, Function.functionHead_eq]
    exact mem_findAll_iff_of_clear preferred nonempty start clear
  have whole := Function.functionBlock?_whole_iff formed stands
  refine ⟨heads, whole, fun absent => ?_⟩
  have member := ((heads _).2 rfl).1
  exact List.mem_append_left _ (List.mem_filterMap.2 ⟨_, member, whole.2 absent⟩)

def move : Function where
  receiver := some "p *Point".toList
  name := "Move".toList
  parameters := "dx rune, at func(rune)".toList
  result := " string ".toList
  body := " if dx == '\x7d' \x7b at(dx) \x7d\nreturn \x60\x7d\\\\\x60 ".toList

theorem wellFormed_move : move.WellFormed where
  receiver := by
    rintro _ same
    obtain rfl := Option.some.inj same
    decide
  exported := by decide
  word := List.all_eq_true.1 (by decide)
  parameters := by decide
  oneLine := by decide
  result := ResultType.of_others (List.all_eq_true.1 (by decide))
  body := by
    have parts : move.body = " if dx == ".toList ++ '\'' :: (['\x7d'] ++ '\'' :: (" ".toList ++
        '\x7b' :: (" at(dx) ".toList ++ '\x7d' :: ("\nreturn ".toList ++
          '\x60' :: ("\x7d\\\\".toList ++ '\x60' :: " ".toList))))) := by
      decide
    rw [parts]
    apply Tokens.run (List.all_eq_true.1 (by decide))
    apply Tokens.rune (.plain (by decide) (by decide) .nil)
    apply Tokens.run (List.all_eq_true.1 (by decide))
    have call : Tokens (fun inside => Even (finalBackslashes inside)) " at(dx) ".toList :=
      Tokens.of_others (List.all_eq_true.1 (by decide))
    apply Tokens.nested call
    apply Tokens.run (List.all_eq_true.1 (by decide))
    apply Tokens.raw (by decide) (by decide)
    exact Tokens.of_others (List.all_eq_true.1 (by decide))
  short := by decide

def geometry : File := ⟨"geo.go", "package geo\n\n".toList ++ (move.text ++ ['\n']), "go"⟩

theorem method_whole :
    move.WellFormed ∧ StartsLine (lastOr "package geo\n\n".toList none) ∧
      Clear functionHead "package geo\n\n".toList (move.text ++ ['\n']) ∧ move.block geometry 13 ∈ blocks geometry := by
  have start : StartsLine (lastOr "package geo\n\n".toList none) := by
    intro c last
    exact (Option.some.inj last).symm
  have clear : Clear functionHead "package geo\n\n".toList (move.text ++ ['\n']) := by decide +kernel
  have absent : '\x7b' ∉ move.result := by decide
  have stands : geometry.source = "package geo\n\n".toList ++ (move.text ++ ['\n']) := rfl
  exact ⟨wellFormed_move, start, clear, (function_whole_iff wellFormed_move stands start clear).2.2 absent⟩

def anyResult : Function where
  receiver := none
  name := "Any".toList
  parameters := []
  result := " interface\x7b\x7d ".toList
  body := "\n\treturn nil\n".toList

def rawPath : Function where
  receiver := none
  name := "Root".toList
  parameters := []
  result := " string ".toList
  body := "\n\treturn \x60C:\\\x60\n".toList

/-- A block ends with the braces of a result type, and behind a raw string that ends in a backslash no end is found. -/
theorem function_cut :
    (anyResult.WellFormed ∧
        (blocks ⟨"any.go", anyResult.text, "go"⟩).map Block.code = ["func Any() interface\x7b\x7d"]) ∧
      (ResultType rawPath.result ∧ Tokens (fun _ => True) rawPath.body ∧
        blocks ⟨"root.go", rawPath.text, "go"⟩ = []) := by
  have formed : anyResult.WellFormed :=
    { receiver := by
        rintro _ same
        contradiction
      exported := by decide
      word := List.all_eq_true.1 (by decide)
      parameters := .nil
      oneLine := by decide
      result := by
        have parts : anyResult.result = " interface".toList ++ '\x7b' :: ([] ++ '\x7d' :: " ".toList) := by decide
        rw [parts]
        apply ResultType.run (List.all_eq_true.1 (by decide))
        exact .braced .nil (ResultType.of_others (List.all_eq_true.1 (by decide)))
      body := Tokens.of_others (List.all_eq_true.1 (by decide))
      short := by decide }
  have result : ResultType rawPath.result := ResultType.of_others (List.all_eq_true.1 (by decide))
  have body : Tokens (fun _ => True) rawPath.body := by
    have parts : rawPath.body = "\n\treturn ".toList ++ '\x60' :: ("C:\\".toList ++ '\x60' :: "\n".toList) := by
      decide
    rw [parts]
    apply Tokens.run (List.all_eq_true.1 (by decide))
    apply Tokens.raw (by decide) trivial
    exact Tokens.of_others (List.all_eq_true.1 (by decide))
  exact ⟨⟨formed, by decide +kernel⟩, result, body, by decide +kernel⟩

end CodeDeck.Extract.Go
