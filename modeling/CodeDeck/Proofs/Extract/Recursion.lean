import CodeDeck.Proofs.Extract.Cut
import CodeDeck.Proofs.Generate.Calls
import CodeDeck.Proofs.Pattern.Found
import CodeDeck.Proofs.Text.Word

/-! Recursion of exported functions. The points for it ask for two calls of the name in the code of a function. A
declaration with a parenthesis right behind the name counts as one of them; behind the name of another declaration a
single call goes unnoticed. -/

namespace CodeDeck

theorem Block.ofCode?_name {name code : List Char} {kind : BlockKind} {filePath language : String}
    {doc : Option (List Char)} {b : Block} (made : ofCode? name kind code filePath language doc = some b) :
    b.name.toList = name := by
  simp only [ofCode?] at made
  split at made
  · contradiction
  split at made
  · contradiction
  split at made
  · contradiction
  obtain rfl := Option.some.inj made
  exact String.toList_ofList

def Generate.plainComplexity (b : Block) : Nat :=
  sizePoints (20 < b.lineCount) (10 < b.lineCount) + structurePoints b.code.toList

namespace Extract.Curly

open CodeDeck.Text CodeDeck.Pattern CodeDeck.Scan CodeDeck.Generate

/-! What stands in front of the name of a function, and what behind it up to its body. -/

def functionLead : List Pattern :=
  [word "export", blanks1, optional (.both (word "default") blanks1), optional (.both (word "async") blanks1),
    word "function", blanks, optional (word "*"), blanks]

def functionTail : List Pattern := [blanks, optional (enclosed '<' '>' (except '>')), blanks, word "("]

def arrowLead : List Pattern := [word "export", blanks1, word "const", blanks1]

def arrowTail : List Pattern :=
  [blanks, typeNote, blanks, word "=", blanks, optional (.both (word "async") blanks),
    optional (.both (enclosed '<' '>' (except '>')) blanks), .either (enclosed '(' ')' (except ')')) name, blanks,
    typeNote, blanks, word "=>"]

theorem functionHead_split : functionHead = ofList (functionLead ++ .keep 1 name :: functionTail) := rfl

theorem arrowHead_split : arrowHead = ofList (arrowLead ++ .keep 1 name :: arrowTail) := rfl

def IsLead (lead : List Char) : Prop := (ofList functionLead).Takes lead ∨ (ofList arrowLead).Takes lead

/-- In the file stands `lead`, then the name of the block; the code of the block starts there. -/
structure Declares (file : File) (b : Block) (lead : List Char) : Prop where
  isLead : IsLead lead
  nonempty : b.name.toList ≠ []
  word : ∀ c ∈ b.name.toList, isWord c = true
  stands : ∃ before rest, file.source = before ++ (lead ++ (b.name.toList ++ rest)) ∧
    b.code.toList <+: lead ++ (b.name.toList ++ rest) ∧ ∀ c, rest.head? = some c → isWord c = false

def behindName (b : Block) (lead : List Char) : List Char := b.code.toList.drop (lead ++ b.name.toList).length

/-- In the declaration a parenthesis follows the name at once. -/
def CallsItself (b : Block) (lead : List Char) : Prop :=
  CallAt b.name.toList (lastOr lead none) (b.code.toList.drop lead.length)

instance (b : Block) (lead : List Char) : Decidable (CallsItself b lead) := inferInstanceAs (Decidable (CallAt ..))

variable {file : File} {b : Block} {lead behind rest : List Char}

theorem IsLead.first (is : IsLead lead) : "export".toList <+: lead := by
  rcases is with ⟨a, more, rfl, word, _⟩ | ⟨a, more, rfl, word, _⟩
  · obtain rfl : a = "export".toList := word
    exact List.prefix_append ..
  · obtain rfl : a = "export".toList := word
    exact List.prefix_append ..

theorem IsLead.parenthesis_notMem (is : IsLead lead) : '(' ∉ lead := by
  have blank (c : Char) (gap : isBlank c = true) : c ≠ '(' := by
    rintro rfl
    exact absurd gap (by decide)
  intro member
  rcases is with takes | takes
  · have free := forall_of_takes takes (P := (· ≠ '(')) ⟨uses_word (by decide), blank,
      Uses.optional ⟨uses_word (by decide), blank⟩, Uses.optional ⟨uses_word (by decide), blank⟩,
      uses_word (by decide), blank, Uses.optional (uses_word (by decide)), blank⟩
    exact free '(' member rfl
  · have free := forall_of_takes takes (P := (· ≠ '('))
      ⟨uses_word (by decide), blank, uses_word (by decide), blank⟩
    exact free '(' member rfl

theorem functionTail_forgets : (ofList functionTail).Forgets := by
  simp [functionTail, ofList, Forgets, blanks, enclosed, Pattern.optional, Pattern.word]

theorem arrowTail_forgets : (ofList arrowTail).Forgets := by
  simp [arrowTail, ofList, Forgets, blanks, enclosed, typeNote, name, Pattern.optional, Pattern.word]

def EndsWord (s : List Char) : Prop := ∀ c, s.head? = some c → isWord c = false

theorem endsWord_cons {c : Char} (plain : isWord c = false) (s : List Char) : EndsWord (c :: s) :=
  fun _ first => Option.some.inj first ▸ plain

theorem endsWord_gap {gap : List Char} (blank : ∀ c ∈ gap, isBlank c = true) (ends : EndsWord rest) :
    EndsWord (gap ++ rest) := by
  cases gap with
  | nil => exact ends
  | cons c more =>
    apply endsWord_cons
    cases word : isWord c with
    | false => rfl
    | true =>
      have inked := isBlank_of_isWord word
      rw [blank c List.mem_cons_self] at inked
      contradiction

theorem functionTail_endsWord (takes : (ofList functionTail).Takes behind) : EndsWord (behind ++ rest) := by
  obtain ⟨gap, _, rfl, ⟨_, blank⟩, angle, _, rfl, enclosed, gap', _, rfl, ⟨_, blank'⟩, paren⟩ := takes
  obtain rfl := show _ = ['('] from paren
  rw [List.append_assoc, List.append_assoc, List.append_assoc]
  apply endsWord_gap blank
  rcases enclosed with ⟨_, inside, rfl, opening, _⟩ | none
  · obtain rfl := show _ = ['<'] from opening
    exact endsWord_cons (by decide) _
  · obtain rfl : angle = [] := none
    rw [List.nil_append]
    exact endsWord_gap blank' (endsWord_cons (c := '(') (by decide) rest)

theorem arrowTail_endsWord (takes : (ofList arrowTail).Takes behind) : EndsWord (behind ++ rest) := by
  obtain ⟨gap, _, rfl, ⟨_, blank⟩, note, _, rfl, type, gap', _, rfl, ⟨_, blank'⟩, _, more, rfl, equals, _⟩ := takes
  obtain rfl := show _ = ['='] from equals
  simp only [List.append_assoc]
  apply endsWord_gap blank
  rcases type with ⟨_, inside, rfl, colon, _⟩ | none
  · obtain rfl := show _ = [':'] from colon
    exact endsWord_cons (by decide) _
  · obtain rfl : note = [] := none
    rw [List.nil_append]
    exact endsWord_gap blank' (endsWord_cons (c := '=') (by decide) _)

/-! Declarations. -/

theorem exists_declares_of_block? {front back : List Pattern} {m : Found} {kind : BlockKind} {stop : Nat}
    {doc : Option (List Char)} (isLead : ∀ lead, (ofList front).Takes lead → IsLead lead) (more : back ≠ [])
    (forgets : (ofList back).Forgets) (ends : ∀ behind rest, (ofList back).Takes behind → EndsWord (behind ++ rest))
    (member : m ∈ (ofList (front ++ .keep 1 name :: back)).findAll file.source)
    (made : file.block? (m.get 1) kind (slice file.source m.start stop) doc = some b) :
    ∃ lead, Declares file b lead := by
  obtain ⟨before, text, same, _, matched⟩ := exists_place_of_mem_findAll member
  obtain ⟨finish, run, rfl⟩ := Option.map_eq_some_iff.1 matched
  obtain ⟨lead, own, behind, rest, kept, takes, ⟨long, word⟩, takes', ahead, keeps⟩ :=
    exists_kept_within more forgets run
  obtain rfl : text = lead ++ (own ++ (behind ++ rest)) := ahead
  have named : b.name.toList = own := by
    rw [Block.ofCode?_name made, Found.get, Found.kept?]
    simp [keeps]
  have code : b.code.toList <+: lead ++ (own ++ (behind ++ rest)) := by
    have cut : slice file.source before.length stop =
        (lead ++ (own ++ (behind ++ rest))).take (stop - before.length) := by
      rw [same, slice, List.drop_left]
    have inked : ∀ c, (slice file.source before.length stop).head? = some c → isBlank c = false := by
      intro c first
      obtain ⟨letters, rfl⟩ := (isLead lead takes).first
      rw [cut, List.head?_take] at first
      split at first
      · contradiction
      · obtain rfl : 'e' = c := Option.some.inj first
        decide
    rw [(Block.ofCode?_fields made).2.2.2.1, String.toList_ofList]
    exact (trim_isPrefix inked).trans (cut ▸ List.take_prefix ..)
  refine ⟨lead, isLead lead takes, ?_, named ▸ word, before, behind ++ rest, named ▸ same, named ▸ code, ?_⟩
  · rw [named]
    exact List.ne_nil_of_length_pos long
  · exact ends behind rest takes'

theorem exists_declares (member : b ∈ blocks file) (kind : b.kind = .function) : ∃ lead, Declares file b lead := by
  simp only [blocks, List.mem_append, List.mem_filterMap] at member
  rcases member with ((⟨m, found, made⟩ | ⟨m, found, made⟩) | ⟨m, found, made⟩) | ⟨m, found, made⟩
  · simp only [functionBlock?, Option.bind_eq_bind, Option.bind_eq_some_iff] at made
    obtain ⟨_, _, _, _, code, cut, made⟩ := made
    obtain ⟨stop, _, rfl⟩ := Option.map_eq_some_iff.1 cut
    exact exists_declares_of_block? (fun lead takes => .inl takes) (List.cons_ne_nil _ _) functionTail_forgets
      (fun _ _ => functionTail_endsWord) (functionHead_split ▸ found) made
  · exact exists_declares_of_block? (fun lead takes => .inr takes) (List.cons_ne_nil _ _) arrowTail_forgets
      (fun _ _ => arrowTail_endsWord) (arrowHead_split ▸ found) made
  · rw [(Block.ofCode?_fields (show file.block? .. = some b from made)).1] at kind
    contradiction
  · simp only [classBlock?, Option.bind_eq_bind, Option.bind_eq_some_iff] at made
    obtain ⟨_, _, _, _, _, _, made⟩ := made
    rw [(Block.ofCode?_fields made).1] at kind
    contradiction

namespace Declares

variable (declares : Declares file b lead)
include declares

theorem calls_code :
    calls b.name.toList none b.code.toList =
      calls b.name.toList none (behindName b lead) + if CallsItself b lead then 1 else 0 := by
  obtain ⟨_, rest, _, code, ends⟩ := declares.stands
  exact calls_declaration declares.nonempty declares.word declares.isLead.parenthesis_notMem code ends

theorem complexity_eq (kind : b.kind = .function) :
    complexity b = plainComplexity b + 2 ↔
      1 < calls b.name.toList none (behindName b lead) + if CallsItself b lead then 1 else 0 := by
  have told := isRecursive_iff declares.nonempty declares.word b.code.toList
  rw [declares.calls_code] at told
  rw [← told, complexity, plainComplexity, kind]
  cases isRecursive b.name.toList b.code.toList <;> simp

end Declares

/-- The points for recursion are given exactly for the functions that are called behind their declared names when a
parenthesis follows the declared name at once. Of the others, those that are called there just once do not get them. -/
theorem recursion_told_iff (member : b ∈ blocks file) (kind : b.kind = .function) :
    (∃ lead, Declares file b lead) ∧ ∀ lead, Declares file b lead →
      ((complexity b = plainComplexity b + 2 ↔ Called b.name.toList none (behindName b lead)) ↔
        CallsItself b lead ∨ calls b.name.toList none (behindName b lead) ≠ 1) := by
  refine ⟨exists_declares member kind, fun lead declares => ?_⟩
  rw [declares.complexity_eq kind, ← calls_pos_iff]
  by_cases own : CallsItself b lead
  · simp only [own, if_true, true_or, iff_true]
    omega
  · simp only [own, if_false, false_or]
    omega

def down : Block where
  name := "down"
  kind := .function
  code := "export async function* down(n) \x7b yield n; yield* down(n - 1); \x7d"
  filePath := "down.js"
  language := "javascript"
  docText := none
  lineCount := 1

def counting : File := ⟨"down.js", ("// n\n" ++ down.code ++ "\n").toList, "javascript"⟩

def downLead : List Char := "export async function* ".toList

theorem declares_down : Declares counting down downLead where
  isLead := by
    refine .inl ⟨"export".toList, _, rfl, rfl, [' '], _, rfl, ⟨by decide, by decide⟩, [], _, rfl, .inr rfl,
      "async ".toList, _, rfl, .inl ⟨"async".toList, [' '], rfl, rfl, by decide, by decide⟩,
      "function".toList, _, rfl, rfl, [], _, rfl, ⟨by decide, by decide⟩, ['*'], [' '], rfl, .inl rfl, ?_⟩
    exact ⟨by decide, by decide⟩
  nonempty := by decide
  word := List.all_eq_true.1 (by decide)
  stands := by
    refine ⟨"// n\n".toList, "(n) \x7b yield n; yield* down(n - 1); \x7d\n".toList, by decide +kernel,
      by decide +kernel, ?_⟩
    intro c first
    obtain rfl : '(' = c := Option.some.inj first
    decide

theorem recursion_of_generator :
    down ∈ blocks counting ∧ down.kind = .function ∧ Declares counting down downLead ∧ CallsItself down downLead ∧
      Called down.name.toList none (behindName down downLead) ∧ complexity down = plainComplexity down + 2 := by
  have member : down ∈ blocks counting := by decide +kernel
  have own : CallsItself down downLead := by decide +kernel
  have called : Called down.name.toList none (behindName down downLead) := by
    rw [← calls_pos_iff]
    decide +kernel
  have told := (recursion_told_iff member rfl).2 downLead declares_down
  exact ⟨member, rfl, declares_down, own, called, (told.2 (.inl own)).2 called⟩

def factorial : Block where
  name := "factorial"
  kind := .function
  code := "export const factorial = (n) => (n ? n * factorial(n - 1) : 1);"
  filePath := "math.ts"
  language := "typescript"
  docText := none
  lineCount := 1

def unwrap : Block where
  name := "unwrap"
  kind := .function
  code := "export function unwrap<T>(box: Box<T>): T \x7b return box.value ?? unwrap(box.next); \x7d"
  filePath := "box.ts"
  language := "typescript"
  docText := none
  lineCount := 1

def alone (b : Block) : File := ⟨b.filePath, b.code.toList, b.language⟩

/-- A binding and a function with type parameters that call themselves get no points for it. -/
theorem recursion_missed :
    (factorial ∈ blocks (alone factorial) ∧ Declares (alone factorial) factorial "export const ".toList ∧
        Called factorial.name.toList none (behindName factorial "export const ".toList) ∧
        complexity factorial = plainComplexity factorial) ∧
      unwrap ∈ blocks (alone unwrap) ∧ Declares (alone unwrap) unwrap "export function ".toList ∧
        Called unwrap.name.toList none (behindName unwrap "export function ".toList) ∧
        complexity unwrap = plainComplexity unwrap := by
  have binding : Declares (alone factorial) factorial "export const ".toList :=
    { isLead := .inr ⟨"export".toList, _, rfl, rfl, [' '], _, rfl, ⟨by decide, by decide⟩,
        "const".toList, [' '], rfl, rfl, by decide, by decide⟩
      nonempty := by decide
      word := List.all_eq_true.1 (by decide)
      stands := by
        refine ⟨[], " = (n) => (n ? n * factorial(n - 1) : 1);".toList, by decide +kernel, by decide +kernel, ?_⟩
        intro c first
        obtain rfl : ' ' = c := Option.some.inj first
        decide }
  have generic : Declares (alone unwrap) unwrap "export function ".toList :=
    { isLead := .inl ⟨"export".toList, _, rfl, rfl, [' '], _, rfl, ⟨by decide, by decide⟩, [], _, rfl, .inr rfl,
        [], _, rfl, .inr rfl, "function".toList, _, rfl, rfl, [' '], _, rfl, ⟨by decide, by decide⟩,
        [], [], rfl, .inr rfl, by decide, by decide⟩
      nonempty := by decide
      word := List.all_eq_true.1 (by decide)
      stands := by
        refine ⟨[], "<T>(box: Box<T>): T \x7b return box.value ?? unwrap(box.next); \x7d".toList, by decide +kernel,
          by decide +kernel, ?_⟩
        intro c first
        obtain rfl : '<' = c := Option.some.inj first
        decide }
  refine ⟨⟨by decide +kernel, binding, ?_, by decide +kernel⟩, by decide +kernel, generic, ?_, by decide +kernel⟩
  · rw [← calls_pos_iff]
    decide +kernel
  · rw [← calls_pos_iff]
    decide +kernel

end Extract.Curly

end CodeDeck
