import CodeDeck.Proofs.Extract.Declaration
import CodeDeck.Proofs.Extract.Grammar
import CodeDeck.Proofs.Pattern.Clear
import CodeDeck.Proofs.Scan.Body

/-! Public type aliases, tuple structs and functions of Rust, and the block that is cut from the text of one. The first
semicolon ends the block of a type, and in front of a body it means that there is none, also where it stands in an
array type. -/

namespace CodeDeck.Extract.Rust

open CodeDeck.Text CodeDeck.Pattern CodeDeck.Scan

/-- Text of types without braces. Round and square brackets come in pairs, and semicolons stand in square ones. -/
inductive TypeText : (array : Bool) → List Char → Prop
  | nil {array : Bool} : TypeText array []
  | plain {array : Bool} {c : Char} {rest : List Char} (other : c ∉ ['(', ')', '[', ']', '\x7b', '\x7d'])
      (length : c = ';' → array = true) (behind : TypeText array rest) : TypeText array (c :: rest)
  | round {array : Bool} {inside rest : List Char} (within : TypeText array inside) (behind : TypeText array rest) :
      TypeText array ('(' :: (inside ++ ')' :: rest))
  | square {array : Bool} {inside rest : List Char} (within : TypeText true inside) (behind : TypeText array rest) :
      TypeText array ('[' :: (inside ++ ']' :: rest))

theorem TypeText.unbraced {array : Bool} {s : List Char} (type : TypeText array s) : '\x7b' ∉ s := by
  induction type with
  | nil => exact List.not_mem_nil
  | plain other _ _ ih =>
    rw [List.mem_cons, not_or]
    exact ⟨fun same => other (by simp [← same]), ih⟩
  | round _ _ ih ih' => simp [ih, ih']
  | square _ _ ih ih' => simp [ih, ih']

def isOther (c : Char) : Bool := decide (c ∉ [';', '(', ')', '[', ']', '\x7b', '\x7d'])

theorem TypeText.run {array : Bool} {lead rest : List Char} (others : ∀ c ∈ lead, isOther c = true)
    (behind : TypeText array rest) : TypeText array (lead ++ rest) := by
  induction lead with
  | nil => exact behind
  | cons c more ih =>
    obtain ⟨other, others⟩ := List.forall_mem_cons.1 others
    obtain ⟨plain, other⟩ := not_or.1 (mt List.mem_cons.2 (of_decide_eq_true other))
    exact .plain other (absurd · plain) (ih others)

theorem TypeText.of_others {array : Bool} {s : List Char} (others : ∀ c ∈ s, isOther c = true) : TypeText array s :=
  List.append_nil s ▸ TypeText.run others .nil

/-! The scans of an item. -/

section Scan

variable {file : File} {m : Found} {before front lead behind : List Char}

theorem throughSemicolon?_first (absent : ';' ∉ lead) (before front behind : List Char) :
    throughSemicolon? (before ++ (front ++ (lead ++ ';' :: behind))) before.length (before.length + front.length) =
      if lead.length < Doc.window then some (front ++ (lead ++ [';'])) else none := by
  have rest : (before ++ (front ++ (lead ++ ';' :: behind))).drop (before.length + front.length) =
      lead ++ ';' :: behind := by
    rw [← List.append_assoc, ← List.length_append, List.drop_left]
  rw [throughSemicolon?, slice, rest, Nat.add_sub_cancel_left, index?, List.drop_zero]
  by_cases near : lead.length < Doc.window
  · obtain ⟨more, same⟩ : ∃ more, (lead ++ ';' :: behind).take Doc.window = lead ++ ';' :: more := by
      obtain ⟨left, room⟩ := Nat.exists_eq_add_of_lt near
      refine ⟨behind.take left, ?_⟩
      rw [room, List.take_append, List.take_of_length_le (by omega), Nat.add_assoc, Nat.add_sub_cancel_left,
        List.take_succ_cons]
    have whole : before ++ (front ++ (lead ++ ';' :: behind)) = before ++ ((front ++ (lead ++ [';'])) ++ behind) := by
      simp
    have stop : before.length + front.length + (0 + lead.length) + 1 =
        before.length + (front ++ (lead ++ [';'])).length := by
      simp only [List.length_append, List.length_singleton]
      omega
    rw [if_pos near, same, indexFrom?_single absent, Option.map_some, stop, whole, slice_append]
  · have cut : (lead ++ ';' :: behind).take Doc.window = lead.take Doc.window := by
      rw [List.take_append_of_le_length (Nat.le_of_not_lt near)]
    rw [if_neg near, cut, indexFrom?_eq_none (fun member => absent (List.mem_of_mem_take member)), Option.map_none]

theorem typeBlock?_semicolon (stands : file.source = before ++ (front ++ (lead ++ ';' :: behind)))
    (start : m.start = before.length) (stop : m.stop = before.length + front.length) (absent : ';' ∉ lead)
    (bare : '\x7b' ∉ lead) :
    typeBlock? file m =
      if lead.length < Doc.window then
        file.block? (m.get 2) .type (front ++ (lead ++ [';'])) (Doc.line? file.source before.length docMarker)
      else none := by
  have body : (if m.get 1 = "type".toList then none else bodyBrace? file.source m.stop [[';']]) = none := by
    split
    · rfl
    · have none := bodyBrace?_eq_none bare (by decide) (List.mem_singleton_self ';') (before ++ front) behind
      rw [stands, stop, ← List.length_append, ← List.append_assoc]
      exact none
  rw [typeBlock?, body]
  simp only [Option.bind_eq_bind, start, stop, stands, throughSemicolon?_first absent]
  split
  · rfl
  · rfl

/-- The brackets of parameters: a single quote opens no literal. -/
def round : Brackets := parens.withQuotes quotes (by decide)

def curly : Brackets := braces.withQuotes quotes (by decide)

variable {parameters inside : List Char}

theorem closingParen?_parameters (balanced : Balanced round parameters)
    (stands : file.source = before ++ (front ++ '(' :: (parameters ++ ')' :: behind)))
    (stop : m.stop = before.length + front.length) :
    (do let opened ← index? ['('] file.source m.stop; closingParen? file.source opened quotes) =
      some (before ++ (front ++ '(' :: (parameters ++ [')']))).length := by
  have opened : index? ['('] file.source m.stop = some (before ++ front).length := by
    have first : index? ['('] (before ++ front ++ ([] ++ '(' :: (parameters ++ ')' :: behind)))
        (before ++ front).length = some (before ++ front).length := index?_single List.not_mem_nil _ _
    rw [stands, stop, ← List.length_append, ← List.append_assoc]
    exact first
  have closed := closingParen?_unit (by decide) balanced (before ++ front) behind
  rw [opened, stands, ← List.append_assoc]
  simp only [Option.bind_eq_bind, Option.bind_some, closed]
  simp only [List.length_append, List.length_cons, List.length_nil]
  congr 1
  omega

theorem functionBlock?_eq_none (balanced : Balanced round parameters) (bare : '\x7b' ∉ lead)
    (stands : file.source = before ++ (front ++ '(' :: (parameters ++ ')' :: (lead ++ ';' :: behind))))
    (stop : m.stop = before.length + front.length) : functionBlock? file m = none := by
  have ended := closingParen?_parameters balanced stands stop
  have body : bodyBrace? file.source (before ++ (front ++ '(' :: (parameters ++ [')']))).length [[';']] = none := by
    have none := bodyBrace?_eq_none bare (by decide) (List.mem_singleton_self ';')
      (before ++ (front ++ '(' :: (parameters ++ [')']))) behind
    rw [stands]
    simpa only [List.append_assoc, List.cons_append, List.nil_append, List.map_cons, List.map_nil] using none
  rw [functionBlock?, ← bind_assoc, ended]
  simp only [Option.bind_eq_bind, Option.bind_some, body, Option.bind_none]

theorem functionBlock?_body (balanced : Balanced round parameters) (bare : '\x7b' ∉ lead) (absent : ';' ∉ lead)
    (unit : Balanced curly inside)
    (stands : file.source =
      before ++ (front ++ '(' :: (parameters ++ ')' :: (lead ++ '\x7b' :: (inside ++ '\x7d' :: behind)))))
    (start : m.start = before.length) (stop : m.stop = before.length + front.length) :
    functionBlock? file m =
      file.block? (m.get 1) .function
        ((front ++ '(' :: (parameters ++ ')' :: lead)) ++ '\x7b' :: (inside ++ ['\x7d']))
        (Doc.line? file.source before.length docMarker) := by
  have ended := closingParen?_parameters balanced stands stop
  have body : bodyBrace? file.source (before ++ (front ++ '(' :: (parameters ++ [')']))).length [[';']] =
      some (before.length + (front ++ '(' :: (parameters ++ ')' :: lead)).length) := by
    have first := bodyBrace?_first bare (List.forall_mem_singleton.2 absent)
      (before ++ (front ++ '(' :: (parameters ++ [')']))) (inside ++ '\x7d' :: behind)
    rw [stands]
    simp only [List.append_assoc, List.cons_append, List.nil_append, List.map_cons, List.map_nil] at first ⊢
    rw [first]
    simp only [List.length_append, List.length_cons, List.length_nil]
    congr 1
    omega
  have code : braceBlock? file.source before.length
      (before.length + (front ++ '(' :: (parameters ++ ')' :: lead)).length) quotes =
        some ((front ++ '(' :: (parameters ++ ')' :: lead)) ++ '\x7b' :: (inside ++ ['\x7d'])) := by
    have cut := braceBlock?_unit (by decide) unit before (front ++ '(' :: (parameters ++ ')' :: lead)) behind
    rw [stands]
    simpa only [List.append_assoc, List.cons_append] using cut
  rw [functionBlock?, ← bind_assoc, ended]
  simp only [Option.bind_eq_bind, Option.bind_some, body, start, code]

end Scan

/-! Items and their text. -/

inductive Item where
  | typeAlias (name target : List Char)
  | tupleStruct (name fields : List Char)
  | function (name parameters result body : List Char)
  deriving DecidableEq, Repr

namespace Item

def name : Item → List Char
  | typeAlias name _ => name
  | tupleStruct name _ => name
  | function name _ _ _ => name

def keyword : Item → String
  | typeAlias .. => "type"
  | tupleStruct .. => "struct"
  | function .. => "fn"

def kind : Item → BlockKind
  | function .. => .function
  | _ => .type

/-- The target of an alias, the fields of a struct, the result of a function. -/
def type : Item → List Char
  | typeAlias _ target => target
  | tupleStruct _ fields => fields
  | function _ _ result _ => result

def parameters : Item → List Char
  | function _ parameters _ _ => parameters
  | _ => []

def body : Item → List Char
  | function _ _ _ body => body
  | _ => []

def head (d : Item) : List Char := "pub ".toList ++ (d.keyword.toList ++ (' ' :: d.name))

def front : Item → List Char
  | typeAlias _ target => " = ".toList ++ target
  | tupleStruct _ fields => '(' :: (fields ++ [')'])
  | function _ parameters result _ => '(' :: (parameters ++ ')' :: (" -> ".toList ++ result))

def close : Item → List Char
  | function _ _ _ body => '\x7b' :: (body ++ ['\x7d'])
  | _ => [';']

def text (d : Item) : List Char := d.head ++ (d.front ++ d.close)

/-- A name, a type without a brace, balanced parameters and body, all within the lines that a block may have. -/
structure WellFormed (d : Item) : Prop where
  named : d.name ≠ []
  word : ∀ c ∈ d.name, isWord c = true
  type : TypeText false d.type
  parameters : Balanced round d.parameters
  body : Balanced curly d.body
  short : ∃ limit, (d.kind, limit) ∈ Block.ceilings ∧ (lines d.text).length ≤ limit

def IsNear (d : Item) : Prop := d.kind = .function ∨ d.front.length < Doc.window

instance (d : Item) : Decidable d.IsNear :=
  inferInstanceAs (Decidable (d.kind = .function ∨ d.front.length < Doc.window))

def pattern : Item → Pattern
  | function .. => functionHead
  | _ => typeHead

def block? : Item → File → Found → Option Block
  | function .. => functionBlock?
  | _ => typeBlock?

def kept : Item → List (Nat × List Char)
  | function name _ _ _ => [(1, name)]
  | d => [(2, d.name), (1, d.keyword.toList)]

def found (d : Item) (margin : List Char) (start : Nat) : Found := ⟨start, start + (margin ++ d.head).length, d.kept⟩

def block (file : File) (start : Nat) (d : Item) : Block where
  name := String.ofList d.name
  kind := d.kind
  code := String.ofList d.text
  filePath := file.path
  language := file.language
  docText := (Doc.line? file.source start docMarker).map String.ofList
  lineCount := (lines d.text).length

theorem mem_blocks {d : Item} {file : File} {m : Found} {b : Block} (member : m ∈ d.pattern.findAll file.source)
    (made : d.block? file m = some b) : b ∈ blocks file := by
  have filtered : b ∈ (d.pattern.findAll file.source).filterMap (d.block? file) :=
    List.mem_filterMap.2 ⟨m, member, made⟩
  cases d with
  | typeAlias => exact List.mem_append_left _ (List.mem_append_right _ filtered)
  | tupleStruct => exact List.mem_append_left _ (List.mem_append_right _ filtered)
  | function => exact List.mem_append_left _ (List.mem_append_left _ filtered)

/-! The block that is cut. -/

section Cut

variable {d : Item} {file : File} {margin before after : List Char} {start : Nat}

theorem trimmed_text (d : Item) : Trimmed d.text where
  first := by
    intro c first
    obtain rfl : 'p' = c := Option.some.inj first
    decide
  last := by
    intro c last
    obtain ⟨sign, same, inked⟩ : ∃ sign, d.close.getLast? = some sign ∧ isBlank sign = false := by
      cases d with
      | typeAlias => exact ⟨';', rfl, by decide⟩
      | tupleStruct => exact ⟨';', rfl, by decide⟩
      | function name parameters result body =>
        exact ⟨'\x7d', by rw [close, ← List.cons_append, List.getLast?_concat], by decide⟩
    rw [text, List.getLast?_append, List.getLast?_append, same] at last
    exact Option.some.inj last ▸ inked

theorem block?_text (formed : d.WellFormed) (blank : ∀ c ∈ margin, isBlank c = true) :
    file.block? d.name d.kind (margin ++ d.text) (Doc.line? file.source start docMarker) =
      some (d.block file start) := by
  obtain ⟨limit, limited, short⟩ := formed.short
  have nonempty : d.text ≠ [] := List.cons_ne_nil _ _
  rw [File.block?, Block.ofCode?_gap blank, Block.ofCode?_trimmed nonempty d.trimmed_text limited short]
  rfl

theorem block?_ne_of_length_lt {name code : List Char} {kind : BlockKind} {doc : Option (List Char)}
    (blank : ∀ c ∈ margin, isBlank c = true) (less : code.length < d.text.length) :
    file.block? name kind (margin ++ code) doc ≠ some (d.block file start) := by
  intro made
  rw [File.block?, Block.ofCode?_gap blank] at made
  have length := Block.length_code_le made
  rw [block, String.toList_ofList] at length
  omega

theorem typeBlock?_whole_iff (formed : d.WellFormed) (own : d.kind = .type) (blank : ∀ c ∈ margin, isBlank c = true)
    (stands : file.source = before ++ (margin ++ (d.text ++ after))) :
    typeBlock? file (d.found margin before.length) = some (d.block file before.length) ↔
      ';' ∉ d.type ∧ d.IsNear := by
  obtain ⟨closes, bare, semicolon, named⟩ : d.close = [';'] ∧ '\x7b' ∉ d.front ∧ (';' ∈ d.front ↔ ';' ∈ d.type) ∧
      (d.found margin before.length).get 2 = d.name := by
    have bare := formed.type.unbraced
    cases d with
    | typeAlias => exact ⟨rfl, by simpa [front, type] using bare, by simp [front, type], rfl⟩
    | tupleStruct => exact ⟨rfl, by simpa [front, type] using bare, by simp [front, type], rfl⟩
    | function => contradiction
  have near : d.IsNear ↔ d.front.length < Doc.window := by simp [IsNear, own]
  rw [near, ← semicolon]
  rw [text, closes] at stands
  by_cases member : ';' ∈ d.front
  · -- what is cut ends in front of the last character, so that it is too short to be the item
    obtain ⟨lead, rest, same, absent⟩ := List.eq_append_cons_of_mem member
    rw [same] at stands bare
    have stands' : file.source = before ++ ((margin ++ d.head) ++ (lead ++ ';' :: (rest ++ ';' :: after))) := by
      simpa using stands
    have less : (d.head ++ (lead ++ [';'])).length < d.text.length := by
      simp only [text, same, closes, List.length_append, List.length_cons]
      omega
    rw [typeBlock?_semicolon stands' rfl rfl absent (fun inside => bare (List.mem_append_left _ inside))]
    refine iff_of_false ?_ (fun both => both.1 member)
    split
    · rw [List.append_assoc]
      exact block?_ne_of_length_lt blank less
    · intro made
      contradiction
  · have stands' : file.source = before ++ ((margin ++ d.head) ++ (d.front ++ ';' :: after)) := by
      simpa using stands
    have whole : (margin ++ d.head) ++ (d.front ++ [';']) = margin ++ d.text := by
      rw [text, closes, List.append_assoc]
    rw [typeBlock?_semicolon stands' rfl rfl member bare, whole, named, ← own, block?_text formed blank]
    simp [member]

theorem functionBlock?_whole_iff {name parameters result body : List Char}
    (formed : (function name parameters result body).WellFormed) (blank : ∀ c ∈ margin, isBlank c = true)
    (stands : file.source = before ++ (margin ++ ((function name parameters result body).text ++ after))) :
    functionBlock? file ((function name parameters result body).found margin before.length) =
        some ((function name parameters result body).block file before.length) ↔ ';' ∉ result := by
  have bare : '\x7b' ∉ result := formed.type.unbraced
  have balanced : Balanced round parameters := formed.parameters
  have unit : Balanced curly body := formed.body
  have spaced : '\x7b' ∉ " -> ".toList ∧ ';' ∉ " -> ".toList := by decide
  generalize arrow : " -> ".toList = gap at spaced
  have text_eq : (function name parameters result body).text = (function name parameters result body).head ++
      ('(' :: (parameters ++ ')' :: (gap ++ result)) ++ '\x7b' :: (body ++ ['\x7d'])) := by
    rw [← arrow]
    rfl
  rw [text_eq] at stands
  by_cases member : ';' ∈ result
  · obtain ⟨lead, rest, rfl, _⟩ := List.eq_append_cons_of_mem member
    have open_ : '\x7b' ∉ gap ++ lead := by
      rw [List.mem_append, not_or]
      exact ⟨spaced.1, fun inside => bare (List.mem_append_left _ inside)⟩
    have stands' : file.source =
        before ++ ((margin ++ (function name parameters (lead ++ ';' :: rest) body).head) ++
          '(' :: (parameters ++ ')' :: ((gap ++ lead) ++ ';' :: (rest ++ '\x7b' :: (body ++ '\x7d' :: after))))) := by
      rw [stands]
      simp
    rw [functionBlock?_eq_none balanced open_ stands' rfl]
    refine iff_of_false ?_ (not_not.2 member)
    intro made
    contradiction
  · have open_ : '\x7b' ∉ gap ++ result := by simp [spaced, bare]
    have unstopped : ';' ∉ gap ++ result := by simp [spaced, member]
    have stands' : file.source =
        before ++ ((margin ++ (function name parameters result body).head) ++
          '(' :: (parameters ++ ')' :: ((gap ++ result) ++ '\x7b' :: (body ++ '\x7d' :: after)))) := by
      rw [stands]
      simp
    have whole : (margin ++ (function name parameters result body).head) ++
        '(' :: (parameters ++ ')' :: (gap ++ result)) ++ '\x7b' :: (body ++ ['\x7d']) =
          margin ++ (function name parameters result body).text := by
      rw [text_eq]
      simp
    rw [functionBlock?_body balanced open_ unstopped unit stands' rfl rfl, whole]
    exact iff_of_true (block?_text formed blank) member

theorem block?_whole_iff (formed : d.WellFormed) (blank : ∀ c ∈ margin, isBlank c = true)
    (stands : file.source = before ++ (margin ++ (d.text ++ after))) :
    d.block? file (d.found margin before.length) = some (d.block file before.length) ↔
      ';' ∉ d.type ∧ d.IsNear := by
  cases d with
  | typeAlias => exact typeBlock?_whole_iff formed rfl blank stands
  | tupleStruct => exact typeBlock?_whole_iff formed rfl blank stands
  | function =>
    rw [and_iff_left (.inl rfl)]
    exact functionBlock?_whole_iff formed blank stands

end Cut

/-! What the patterns take of an item. -/

section Heads

variable {d : Item} {margin rest : List Char}

def attributeLines : Pattern :=
  .both indent (.repeated (ofList [word "#[", .run (· != '\n') 0, word "]", indent, word "\n", indent]))

theorem attributeLines_takes (blank : ∀ c ∈ margin, (c == ' ' || c == '\t') = true) (more : List Char) :
    attributeLines.Prefers margin ("pub ".toList ++ more) [] := by
  have absent : ¬ ['#', '['] <+: "pub ".toList ++ more := by
    intro start
    exact absurd (List.cons_prefix_cons.1 start).1 (by decide)
  have taken : attributeLines.Prefers (margin ++ []) ("pub ".toList ++ more) [] := by
    apply Prefers.lead (prefers_run_before blank (Nat.zero_le _) rfl (by decide))
    exact prefers_no_more (mt Starts.opening absent)
  rwa [List.append_nil] at taken

theorem visibility_takes {c : Char} (ahead : rest.head? = some c) (inked : isBlank c = false) :
    visibility.Prefers "pub ".toList rest [] := by
  have absent : ¬ ['('] <+: ' ' :: rest := by
    intro start
    exact absurd (List.cons_prefix_cons.1 start).1 (by decide)
  have taken : visibility.Prefers ("pub".toList ++ ([] ++ [' '])) rest [] := by
    apply (prefers_text _ _).lead
    apply (prefers_without (mt Starts.opening absent)).lead
    exact prefers_space (Nat.le_refl 1) ahead inked
  exact taken

def typeWords : List String := ["struct", "enum", "trait", "union", "type"]

def opening : Item → Pattern
  | function .. => ofList [visibility, functionModifiers, word "fn", blanks1, .keep 1 Extract.name]
  | _ => ofList [visibility, .keep 1 (anyWord typeWords), blanks1, .keep 2 Extract.name]

theorem pattern_eq (d : Item) : d.pattern = .both (.both .lineStart attributeLines) d.opening := by
  cases d <;> rfl

theorem no_modifier (reached : rest.head? = some 'f') : functionModifiers.Prefers [] rest [] := by
  apply prefers_no_more
  intro starts
  obtain ⟨a, behind, same, takes, _⟩ := starts.both
  have first : a.head? = some 'a' ∨ a.head? = some 'c' ∨ a.head? = some 'u' ∨ a.head? = some 'e' := by
    rcases takes with (rfl | rfl | rfl) | ⟨b, _, rfl, rfl, _⟩
    · exact .inl rfl
    · exact .inr (.inl rfl)
    · exact .inr (.inr (.inl rfl))
    · exact .inr (.inr (.inr rfl))
  have letter : ∀ c, a.head? = some c → c = 'f' := by
    intro c head
    rw [same, List.head?_append, head] at reached
    exact Option.some.inj reached
  rcases first with head | head | head | head <;> exact absurd (letter _ head) (by decide)

section Name

variable {name : List Char} (named : name ≠ []) (word : ∀ c ∈ name, isWord c = true) {c : Char}
  (ahead : rest.head? = some c) (stops : isWord c = false)
include named word ahead stops

theorem name_takes (slot : Nat) :
    (Pattern.both blanks1 (.keep slot Extract.name)).Prefers ([' '] ++ name) rest [(slot, name)] := by
  obtain ⟨first, letters, rfl⟩ := List.exists_cons_of_ne_nil named
  have inked : isBlank first = false := isBlank_of_isWord (word first List.mem_cons_self)
  exact (prefers_space (Nat.le_refl 1) rfl inked).lead (prefers_name_before named word ahead stops)

theorem type_takes {keyword : String} (own : keyword = "type" ∨ keyword = "struct") :
    (ofList [visibility, .keep 1 (anyWord typeWords), blanks1, .keep 2 Extract.name]).Prefers
      ("pub ".toList ++ (keyword.toList ++ ([' '] ++ name))) rest [(2, name), (1, keyword.toList)] := by
  have apart : ∀ v ∈ typeWords, v ≠ keyword → ¬ v.toList <+: keyword.toList ∧ ¬ keyword.toList <+: v.toList := by
    rcases own with rfl | rfl <;> decide
  obtain ⟨listed, sign, reached, inked⟩ : keyword ∈ typeWords ∧
      ∃ c, (keyword.toList ++ ([' '] ++ name) ++ rest).head? = some c ∧ isBlank c = false := by
    rcases own with rfl | rfl
    · exact ⟨by decide, 't', rfl, by decide⟩
    · exact ⟨by decide, 's', rfl, by decide⟩
  apply (visibility_takes reached inked).lead
  exact ((prefers_anyWord listed apart _).keep 1).both (name_takes named word ahead stops 2)

theorem function_takes :
    (ofList [visibility, functionModifiers, Pattern.word "fn", blanks1, .keep 1 Extract.name]).Prefers
      ("pub ".toList ++ ([] ++ ("fn".toList ++ ([' '] ++ name)))) rest [(1, name)] := by
  have reached : ([] ++ ("fn".toList ++ ([' '] ++ name)) ++ rest).head? = some 'f' := rfl
  apply (visibility_takes reached (by decide)).lead
  apply (no_modifier reached).lead
  apply (prefers_text _ _).lead
  exact name_takes named word ahead stops 1

end Name

theorem head_takes (formed : d.WellFormed) {c : Char} (ahead : rest.head? = some c) (stops : isWord c = false) :
    d.opening.Prefers d.head rest d.kept := by
  cases d with
  | typeAlias => exact type_takes formed.named formed.word ahead stops (.inl rfl)
  | tupleStruct => exact type_takes formed.named formed.word ahead stops (.inr rfl)
  | function => exact function_takes formed.named formed.word ahead stops

end Heads

end Item

/-- Where the line of an item is clear of earlier matches, just its head is found there. The block made of it is the
whole item exactly when no semicolon stands in its type, and that of a type is not too far behind the name. -/
theorem item_whole_iff {d : Item} (formed : d.WellFormed) {file : File} {margin before after : List Char}
    (indented : ∀ c ∈ margin, (c == ' ' || c == '\t') = true)
    (stands : file.source = before ++ (margin ++ (d.text ++ after))) (start : StartsLine (lastOr before none))
    (clear : Clear d.pattern before (margin ++ (d.text ++ after))) :
    (∀ m, m ∈ d.pattern.findAll file.source ∧ m.start = before.length ↔ m = d.found margin before.length) ∧
    (d.block? file (d.found margin before.length) = some (d.block file before.length) ↔
      ';' ∉ d.type ∧ d.IsNear) ∧
    (';' ∉ d.type ∧ d.IsNear → d.block file before.length ∈ blocks file) := by
  have blank : ∀ c ∈ margin, isBlank c = true := by
    intro c member
    rcases Bool.or_eq_true_iff.1 (indented c member) with space | tab
    · rw [beq_iff_eq.1 space]
      decide
    · rw [beq_iff_eq.1 tab]
      decide
  obtain ⟨sign, ahead, stops⟩ : ∃ c, (d.front ++ (d.close ++ after)).head? = some c ∧ isWord c = false := by
    cases d with
    | typeAlias => exact ⟨' ', rfl, by decide⟩
    | tupleStruct => exact ⟨'(', rfl, by decide⟩
    | function => exact ⟨'(', rfl, by decide⟩
  have text : margin ++ (d.text ++ after) = (margin ++ d.head) ++ (d.front ++ (d.close ++ after)) := by
    simp only [Item.text, List.append_assoc]
  have preferred : (Pattern.both Item.attributeLines d.opening).Prefers (margin ++ d.head)
      (d.front ++ (d.close ++ after)) d.kept := by
    apply Prefers.lead _ (Item.head_takes formed ahead stops)
    rw [Item.head, List.append_assoc]
    exact Item.attributeLines_takes indented _
  have nonempty : margin ++ d.head ≠ [] := List.append_ne_nil_of_right_ne_nil _ (List.cons_ne_nil _ _)
  have heads : ∀ m, m ∈ d.pattern.findAll file.source ∧ m.start = before.length ↔
      m = d.found margin before.length := by
    rw [text, d.pattern_eq] at clear
    rw [stands, text, d.pattern_eq]
    exact mem_findAll_iff_of_clear_lead preferred nonempty start clear
  have whole := Item.block?_whole_iff formed blank stands
  exact ⟨heads, whole, fun holds => Item.mem_blocks ((heads _).2 rfl).1 (whole.2 holds)⟩

def pick : Item :=
  .function "pick".toList "at: &'a str".toList "Option<(u8, &'a [u8])> ".toList
    " if at == \"\x7d\" \x7b None \x7d else \x7b all(at) \x7d ".toList

theorem wellFormed_pick : pick.WellFormed where
  named := by decide
  word := List.all_eq_true.1 (by decide)
  type := by
    have parts : pick.type = "Option<".toList ++ '(' :: (("u8, &'a ".toList ++ '[' :: ("u8".toList ++ ']' :: [])) ++
        ')' :: "> ".toList) := by
      decide
    rw [parts]
    have slice : TypeText false ("u8, &'a ".toList ++ '[' :: ("u8".toList ++ ']' :: [])) := by
      apply TypeText.run (List.all_eq_true.1 (by decide))
      exact .square (.of_others (List.all_eq_true.1 (by decide))) .nil
    apply TypeText.run (List.all_eq_true.1 (by decide))
    exact .round slice (.of_others (List.all_eq_true.1 (by decide)))
  parameters := by decide
  body := by decide
  short := ⟨40, by decide, by decide⟩

def indented : File := ⟨"io.rs", "mod io \x7b\n".toList ++ ("    ".toList ++ (pick.text ++ "\n\x7d\n".toList)), "rust"⟩

theorem indented_function_whole :
    pick.WellFormed ∧ (∀ c ∈ "    ".toList, (c == ' ' || c == '\t') = true) ∧
      StartsLine (lastOr "mod io \x7b\n".toList none) ∧
      Clear pick.pattern "mod io \x7b\n".toList ("    ".toList ++ (pick.text ++ "\n\x7d\n".toList)) ∧
      (';' ∉ pick.type ∧ pick.IsNear) ∧ pick.block indented 9 ∈ blocks indented := by
  have spaces : ∀ c ∈ "    ".toList, (c == ' ' || c == '\t') = true := List.all_eq_true.1 (by decide)
  have start : StartsLine (lastOr "mod io \x7b\n".toList none) := by
    intro c last
    exact (Option.some.inj last).symm
  have clear : Clear pick.pattern "mod io \x7b\n".toList ("    ".toList ++ (pick.text ++ "\n\x7d\n".toList)) := by
    decide +kernel
  have holds : ';' ∉ pick.type ∧ pick.IsNear := by decide
  have stands : indented.source = "mod io \x7b\n".toList ++ ("    ".toList ++ (pick.text ++ "\n\x7d\n".toList)) := rfl
  exact ⟨wellFormed_pick, spaces, start, clear, holds,
    (item_whole_iff wellFormed_pick spaces stands start clear).2.2 holds⟩

def key : Item := .typeAlias "Key".toList "[u8; 4]".toList

def pair : Item := .tupleStruct "Pair".toList "[u8; 2], u8".toList

def zero : Item := .function "zero".toList [] "[u8; 4] ".toList " [0, 0, 0, 0] ".toList

/-- A semicolon of an array type cuts the block of a type, and of a function none is made. -/
theorem array_type_cut :
    (key.WellFormed ∧ (blocks ⟨"a.rs", key.text, "rust"⟩).map Block.code = ["pub type Key = [u8;"]) ∧
      (pair.WellFormed ∧ (blocks ⟨"a.rs", pair.text, "rust"⟩).map Block.code = ["pub struct Pair([u8;"]) ∧
      (zero.WellFormed ∧ blocks ⟨"a.rs", zero.text, "rust"⟩ = []) := by
  have array {rest length : List Char} (digits : ∀ c ∈ length, isOther c = true) (behind : TypeText false rest) :
      TypeText false ('[' :: (("u8".toList ++ ';' :: (' ' :: length)) ++ ']' :: rest)) := by
    apply TypeText.square _ behind
    apply TypeText.run (List.all_eq_true.1 (by decide))
    exact .plain (by decide) (fun _ => rfl) (.plain (by decide) (fun _ => rfl) (.of_others digits))
  have formedKey : key.WellFormed :=
    { named := by decide
      word := List.all_eq_true.1 (by decide)
      type := array (List.all_eq_true.1 (by decide : ['4'].all isOther = true)) .nil
      parameters := .nil
      body := .nil
      short := ⟨30, by decide, by decide⟩ }
  have formedPair : pair.WellFormed :=
    { named := by decide
      word := List.all_eq_true.1 (by decide)
      type := array (List.all_eq_true.1 (by decide : ['2'].all isOther = true))
        (.of_others (List.all_eq_true.1 (by decide : ", u8".toList.all isOther = true)))
      parameters := .nil
      body := .nil
      short := ⟨30, by decide, by decide⟩ }
  have formedZero : zero.WellFormed :=
    { named := by decide
      word := List.all_eq_true.1 (by decide)
      type := array (List.all_eq_true.1 (by decide : ['4'].all isOther = true))
        (.of_others (List.all_eq_true.1 (by decide : [' '].all isOther = true)))
      parameters := .nil
      body := by decide
      short := ⟨40, by decide, by decide⟩ }
  exact ⟨⟨formedKey, by decide +kernel⟩, ⟨formedPair, by decide +kernel⟩, ⟨formedZero, by decide +kernel⟩⟩

end CodeDeck.Extract.Rust
