import CodeDeck.Proofs.Extract.Cut
import CodeDeck.Proofs.Scan.Balanced
import CodeDeck.Proofs.Text.Word

/-! Exported functions and classes, and the block that is cut from the text of one: where a declaration stands in
a file, the scans go through its parameters and its body and stop at its end. -/

namespace CodeDeck

open CodeDeck.Text

theorem BlockKind.lineLimit?_of_mem_ceilings {kind : BlockKind} {limit : Nat}
    (limited : (kind, limit) ∈ Block.ceilings) : kind.lineLimit? = some limit := by
  simp only [Block.ceilings, List.mem_cons, List.not_mem_nil, or_false, Prod.mk.injEq] at limited
  rcases limited with ⟨rfl, rfl⟩ | ⟨rfl, rfl⟩ | ⟨rfl, rfl⟩ | ⟨rfl, rfl⟩ | ⟨rfl, rfl⟩ <;> rfl

theorem Block.ofCode?_trimmed {kind : BlockKind} {code : List Char} {limit : Nat} (nonempty : code ≠ [])
    (trimmed : Trimmed code) (limited : (kind, limit) ∈ ceilings) (short : (lines code).length ≤ limit)
    (name : List Char) (filePath language : String) (doc : Option (List Char)) :
    ofCode? name kind code filePath language doc =
      some ⟨String.ofList name, kind, String.ofList code, filePath, language, doc.map String.ofList,
        (lines code).length⟩ := by
  rw [length_lines] at short ⊢
  rw [ofCode?, trimmed.trim_eq]
  simp [nonempty, BlockKind.lineLimit?_of_mem_ceilings limited, Nat.not_lt.2 short]

theorem Block.ofCode?_gap {gap : List Char} (blank : ∀ c ∈ gap, isBlank c = true) (name : List Char)
    (kind : BlockKind) (code : List Char) (filePath language : String) (doc : Option (List Char)) :
    ofCode? name kind (gap ++ code) filePath language doc = ofCode? name kind code filePath language doc := by
  rw [ofCode?, trim_gap blank]
  rfl

theorem Block.length_code_le {name code : List Char} {kind : BlockKind} {filePath language : String}
    {doc : Option (List Char)} {b : Block} (made : ofCode? name kind code filePath language doc = some b) :
    b.code.toList.length ≤ code.length := by
  obtain ⟨_, _, _, cut, _⟩ := ofCode?_fields made
  rw [cut, String.toList_ofList]
  exact (trim_isInfix code).length_le

namespace Extract.Curly

open CodeDeck.Pattern CodeDeck.Scan

/-! Markup. -/

/-- The signs of markup: a closing tag, the close of a fragment, the end of a self-closing tag. -/
inductive IsTag : List Char → Prop
  | closing {c : Char} (letter : isLetter c = true) : IsTag ['<', '/', c]
  | fragment : IsTag ['<', '/', '>']
  | selfClosing : IsTag ['/', '>']

def Markup (s : List Char) : Prop := ∃ tag, IsTag tag ∧ tag <:+: s

theorem markup_cons_iff {c : Char} {rest : List Char} :
    Markup (c :: rest) ↔ (∃ tag, IsTag tag ∧ tag <+: c :: rest) ∨ Markup rest := by
  simp only [Markup, List.infix_cons_iff, and_or_left, exists_or]

theorem hasMarkup_iff (s : List Char) : hasMarkup s = true ↔ Markup s := by
  induction s with
  | nil =>
    simp only [hasMarkup, Bool.false_eq_true, false_iff]
    rintro ⟨_, isTag, inside⟩
    rw [List.infix_nil.1 inside] at isTag
    cases isTag
  | cons c rest ih =>
    unfold hasMarkup
    rw [markup_cons_iff, Bool.or_eq_true, ih]
    apply or_congr_left
    constructor
    · intro starts
      split at starts
      · exact ⟨_, .selfClosing, List.prefix_append ..⟩
      · next d behind =>
        rcases Bool.or_eq_true_iff.1 starts with closes | letter
        · rw [beq_iff_eq] at closes
          exact ⟨_, .fragment, behind, by rw [closes]; rfl⟩
        · exact ⟨_, .closing letter, behind, rfl⟩
      · contradiction
    · rintro ⟨_, isTag, behind, whole⟩
      cases isTag with
      | closing letter =>
        obtain ⟨rfl, rfl⟩ := List.cons.inj whole
        simp [letter]
      | fragment =>
        obtain ⟨rfl, rfl⟩ := List.cons.inj whole
        rfl
      | selfClosing =>
        obtain ⟨rfl, rfl⟩ := List.cons.inj whole
        rfl

instance : DecidablePred Markup := fun s => decidable_of_iff _ (hasMarkup_iff s)

/-! Declarations and their text. -/

inductive Declaration where
  | function (name parameters body : List Char)
  | concept (name body : List Char)
  deriving DecidableEq, Repr

namespace Declaration

def name : Declaration → List Char
  | function name _ _ => name
  | concept name _ => name

def parameters : Declaration → List Char
  | function _ parameters _ => parameters
  | concept _ _ => []

def body : Declaration → List Char
  | function _ _ body => body
  | concept _ body => body

def isFunction : Declaration → Bool
  | function .. => true
  | concept .. => false

def head : Declaration → List Char
  | function name _ _ => "export function ".toList ++ (name ++ ['('])
  | concept name _ => "export class ".toList ++ name

def inputs : Declaration → List Char
  | function _ parameters _ => parameters ++ [')']
  | concept _ _ => []

def text (d : Declaration) : List Char := d.head ++ d.inputs ++ " \x7b".toList ++ d.body ++ ['\x7d']

def kind (d : Declaration) : BlockKind :=
  match d with
  | function name _ _ => if name.head?.any isUppercase = true ∧ Markup d.text then .pattern else .function
  | concept _ _ => .concept

def block (path language : String) (d : Declaration) : Block where
  name := String.ofList d.name
  kind := d.kind
  code := String.ofList d.text
  filePath := path
  language := language
  docText := none
  lineCount := (lines d.text).length

/-- A name, and parameters and a body that are balanced and export nothing, all within the lines that a block of the
kind may have. -/
structure WellFormed (d : Declaration) : Prop where
  named : d.name ≠ []
  word : ∀ c ∈ d.name, isWord c = true
  balanced : Balanced parens d.parameters
  unquoted : ∀ c ∈ d.parameters, c ∉ defaultQuotes
  unit : Balanced braces d.body
  single : ¬ "export".toList <:+: d.parameters ∧ ¬ "export".toList <:+: d.body
  short : ∃ limit, (d.kind, limit) ∈ Block.ceilings ∧ (lines d.text).length ≤ limit

def tail (d : Declaration) : List Char := d.inputs ++ (" \x7b".toList ++ (d.body ++ ['\x7d']))

theorem text_eq (d : Declaration) : d.text = d.head ++ d.tail := by
  simp only [text, tail, List.append_assoc]

theorem functionKind_eq (name parameters body : List Char) :
    functionKind name (function name parameters body).text = (function name parameters body).kind := by
  simp only [functionKind, kind, Bool.and_eq_true, hasMarkup_iff]

theorem getLast?_text (d : Declaration) : d.text.getLast? = some '\x7d' := List.getLast?_concat

theorem closed_behind (before : List Char) (d : Declaration) :
    (trimEnd (before ++ d.text ++ ['\n'])).getLast? ≠ some '/' := by
  have brace : (before ++ d.text).getLast? = some '\x7d' := by
    rw [List.getLast?_append, d.getLast?_text]
    rfl
  rw [getLast?_trimEnd_newline brace (by decide)]
  decide

theorem trimmed_text (d : Declaration) : Trimmed d.text where
  first := by
    intro c first
    have start : d.text.head? = some 'e' := by cases d <;> rfl
    obtain rfl : 'e' = c := Option.some.inj (start.symm.trans first)
    decide
  last := by
    intro c last
    obtain rfl : '\x7d' = c := Option.some.inj (d.getLast?_text.symm.trans last)
    decide

def lead (d : Declaration) : List Char := d.head ++ d.inputs

theorem text_append (d : Declaration) (after : List Char) :
    d.text ++ after = d.lead ++ ' ' :: '\x7b' :: (d.body ++ '\x7d' :: after) := by
  rw [text, ← lead]
  simp only [List.append_assoc]
  rfl

end Declaration

/-- A declaration that stands in a file, not right behind a comment, becomes its block where its head is found. -/
def Cuts (block? : File → Found → Option Block) (own : Declaration → Bool) : Prop :=
  ∀ (file : File) (d : Declaration) (before after : List Char), d.WellFormed → own d = true →
    (trimEnd before).getLast? ≠ some '/' → file.source = before ++ (d.text ++ after) →
    block? file ⟨before.length, before.length + d.head.length, [(1, d.name)]⟩ =
      some (d.block file.path file.language)

section Blocks

variable {file : File} {d : Declaration} {before after : List Char}

theorem block?_text (formed : d.WellFormed) (open_ : (trimEnd before).getLast? ≠ some '/')
    (stands : file.source = before ++ (d.text ++ after)) :
    file.block? d.name d.kind d.text (Doc.block? file.source before.length) =
      some (d.block file.path file.language) := by
  obtain ⟨limit, limited, short⟩ := formed.short
  have nonempty : d.text ≠ [] := List.append_ne_nil_of_right_ne_nil _ (List.cons_ne_nil _ _)
  rw [stands, Doc.block?_eq_none open_, File.block?,
    Block.ofCode?_trimmed nonempty d.trimmed_text limited short]
  rfl

theorem annotatedBodyBrace?_text {previous : List Char} (stands : file.source = before ++ (d.text ++ after))
    (plain : previous ∉ typeLeaders) :
    annotatedBodyBrace? file.source (before.length + d.lead.length) previous defaultQuotes =
      some (before.length + (d.lead ++ [' ']).length) := by
  have found := annotatedBodyBrace?_space plain (before ++ d.lead) (d.body ++ '\x7d' :: after)
  rw [stands, d.text_append, ← List.append_assoc, ← List.length_append, found]
  simp only [List.length_append, List.length_singleton, Nat.add_assoc]

theorem braceBlock?_text (formed : d.WellFormed) (stands : file.source = before ++ (d.text ++ after)) :
    braceBlock? file.source before.length (before.length + (d.lead ++ [' ']).length) defaultQuotes =
      some d.text := by
  have found := braceBlock?_balanced formed.unit before (d.lead ++ [' ']) after
  have whole := d.text_append []
  rw [List.append_nil] at whole
  rw [stands, d.text_append, whole]
  simpa only [List.append_assoc, List.singleton_append] using found

theorem closingParen?_text (formed : d.WellFormed) (own : d.isFunction = true)
    (stands : file.source = before ++ (d.text ++ after)) :
    closingParen? file.source (before.length + d.head.length - 1) defaultQuotes =
      some (before.length + d.lead.length) := by
  cases d with
  | concept => contradiction
  | function name parameters body =>
    have opened : (Declaration.function name parameters body).head = ("export function ".toList ++ name) ++ ['('] :=
      (List.append_assoc ..).symm
    generalize "export function ".toList ++ name = call at opened
    have found := closingParen?_balanced formed.balanced (before ++ call)
      (' ' :: '\x7b' :: (body ++ '\x7d' :: after))
    have length : before.length + (call ++ ['(']).length - 1 = (before ++ call).length := by
      simp only [List.length_append, List.length_singleton]
      omega
    rw [stands, Declaration.text_append, Declaration.lead, opened, length]
    simp only [Declaration.inputs, Declaration.parameters, Declaration.body, List.append_assoc, List.cons_append,
      List.nil_append] at found ⊢
    rw [found]
    congr 1
    simp only [List.length_append, List.length_cons, List.length_nil]
    omega

theorem functionBlock?_cuts : Cuts functionBlock? (·.isFunction) := by
  intro file d before after formed own open_ stands
  have plain : [')'] ∉ typeLeaders := by decide
  have kind : functionKind d.name d.text = d.kind := by
    cases d with
    | function name parameters body => exact Declaration.functionKind_eq name parameters body
    | concept => contradiction
  have named : Found.get ⟨before.length, before.length + d.head.length, [(1, d.name)]⟩ 1 = d.name := rfl
  simp only [functionBlock?, Option.bind_eq_bind, closingParen?_text formed own stands, Option.bind_some,
    annotatedBodyBrace?_text stands plain, braceBlock?_text formed stands, named, kind]
  exact block?_text formed open_ stands

theorem notMem_typeLeaders {c : Char} (word : isWord c = true) : [c] ∉ typeLeaders := by
  intro member
  have signs : typeLeaders.all (fun leader => leader.all fun c => !isWord c) = true := by decide
  have sign := List.all_eq_true.1 (List.all_eq_true.1 signs [c] member) c List.mem_cons_self
  rw [word] at sign
  contradiction

theorem classBlock?_cuts : Cuts classBlock? (!·.isFunction) := by
  intro file d before after formed own open_ stands
  obtain ⟨last, final⟩ : ∃ last, d.name.getLast? = some last := ⟨_, List.getLast?_eq_some_getLast formed.named⟩
  have plain := notMem_typeLeaders (formed.word last (List.mem_of_getLast? final))
  have lead : d.lead = d.head := by
    cases d with
    | function => contradiction
    | concept name body => exact List.append_nil _
  have kind : d.kind = .concept := by
    cases d with
    | function => contradiction
    | concept name body => rfl
  have named : Found.get ⟨before.length, before.length + d.head.length, [(1, d.name)]⟩ 1 = d.name := rfl
  have body := annotatedBodyBrace?_text stands plain
  rw [lead] at body
  have code := braceBlock?_text formed stands
  rw [lead] at code
  simp only [classBlock?, Option.bind_eq_bind, named, final, Option.bind_some, body, code, ← kind]
  exact block?_text formed open_ stands

end Blocks

end Extract.Curly

end CodeDeck
