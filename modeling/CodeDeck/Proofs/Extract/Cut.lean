import CodeDeck.Extract.Blocks
import CodeDeck.Proofs.Doc
import CodeDeck.Proofs.Scan.Indent

/-! Blocks are cut from the file in which they are found. Whatever extractor finds a block, its code
is a part of the source, trimmed and within the limit of its kind, and its documentation is prose. -/

namespace CodeDeck

open CodeDeck.Text

namespace Block

def ceilings : List (BlockKind × Nat) :=
  [(.function, 40), (.type, 30), (.concept, 50), (.pattern, 50), (.file, 40)]

/-- What a block owes to the file in which it was found. -/
structure CutFrom (b : Block) (file : Extract.File) : Prop where
  part : b.code.toList <:+: file.source
  nonempty : b.code ≠ ""
  trimmed : Trimmed b.code.toList
  lineCount : b.lineCount = (lines b.code.toList).length
  ceiling : ∃ limit, (b.kind, limit) ∈ ceilings ∧ b.lineCount ≤ limit
  filePath : b.filePath = file.path
  language : b.language = file.language
  doc : ∀ text, b.docText = some text → Prose text.toList

theorem mem_ceilings_of_lineLimit? {kind : BlockKind} {limit : Nat}
    (limited : kind.lineLimit? = some limit) : (kind, limit) ∈ ceilings := by
  cases kind <;> simp_all [BlockKind.lineLimit?, ceilings]

theorem ofCode?_limit {name code : List Char} {kind : BlockKind} {filePath language : String}
    {doc : Option (List Char)} {b : Block}
    (found : ofCode? name kind code filePath language doc = some b) :
    trim code ≠ [] ∧ ∃ limit, kind.lineLimit? = some limit ∧ countLines (trim code) ≤ limit := by
  simp only [ofCode?] at found
  split at found
  · contradiction
  · next nonempty =>
    split at found
    · contradiction
    · next limit limited =>
      split at found
      · contradiction
      · next within => exact ⟨nonempty, limit, limited, Nat.le_of_not_lt within⟩

end Block

namespace Extract

open CodeDeck.Pattern CodeDeck.Scan

theorem File.block?_cutFrom {file : File} {name code : List Char} {kind : BlockKind}
    {doc : Option (List Char)} {b : Block} (found : file.block? name kind code doc = some b)
    (part : code <:+: file.source) (prose : ∀ text, doc = some text → Prose text) :
    b.CutFrom file := by
  obtain ⟨sameKind, samePath, sameLanguage, sameCode, sameCount, sameDoc⟩ :=
    Block.ofCode?_fields found
  obtain ⟨nonempty, limit, limited, within⟩ := Block.ofCode?_limit found
  have cut : b.code.toList = trim code := by rw [sameCode, String.toList_ofList]
  exact {
    part := by
      rw [cut]
      exact (trim_isInfix code).trans part
    nonempty := by
      intro empty
      rw [empty] at cut
      exact nonempty cut.symm
    trimmed := by
      rw [cut]
      exact trimmed_trim code
    lineCount := by rw [cut, sameCount, length_lines]
    ceiling := by
      refine ⟨limit, ?_, ?_⟩
      · rw [sameKind]
        exact Block.mem_ceilings_of_lineLimit? limited
      · rw [sameCount]
        exact within
    filePath := samePath
    language := sameLanguage
    doc := by
      intro text held
      rw [sameDoc, Option.map_eq_some_iff] at held
      obtain ⟨inside, given, rfl⟩ := held
      rw [String.toList_ofList]
      exact prose inside given }

namespace Curly

theorem functionBlock?_cutFrom {file : File} {m : Found} {b : Block}
    (found : functionBlock? file m = some b) : b.CutFrom file := by
  simp only [functionBlock?, Option.bind_eq_bind, Option.bind_eq_some_iff] at found
  obtain ⟨_, _, _, _, code, cut, made⟩ := found
  exact File.block?_cutFrom made (braceBlock?_isInfix cut) fun _ doc => Doc.prose_block? doc

theorem arrowBlock?_cutFrom {file : File} {m : Found} {b : Block}
    (found : arrowBlock? file m = some b) : b.CutFrom file :=
  File.block?_cutFrom found (slice_isInfix ..) fun _ doc => Doc.prose_block? doc

theorem take_drop_isInfix (s : List Char) (start count : Nat) : (s.drop start).take count <:+: s :=
  (List.take_prefix ..).isInfix.trans (List.drop_suffix ..).isInfix

theorem braceBlock?_getD_isInfix (source : List Char) (start scanFrom cap : Nat)
    (quotes : List Char) :
    (braceBlock? source start scanFrom quotes).getD ((source.drop start).take cap) <:+: source := by
  cases cut : braceBlock? source start scanFrom quotes with
  | none => exact take_drop_isInfix ..
  | some code => exact braceBlock?_isInfix cut

theorem aliasCode_isInfix (source : List Char) (start : Nat) : aliasCode source start <:+: source := by
  unfold aliasCode
  extract_lets rest semicolon brace bracedFirst
  split
  · exact braceBlock?_getD_isInfix ..
  · clear_value semicolon
    cases semicolon with
    | some s => exact take_drop_isInfix ..
    | none =>
      dsimp only
      split
      · exact take_drop_isInfix ..
      · exact take_drop_isInfix ..

theorem typeBlock?_cutFrom {file : File} {m : Found} {b : Block}
    (found : typeBlock? file m = some b) : b.CutFrom file := by
  refine File.block?_cutFrom found ?_ fun _ doc => Doc.prose_block? doc
  split
  · exact braceBlock?_getD_isInfix ..
  · exact aliasCode_isInfix ..

theorem classBlock?_cutFrom {file : File} {m : Found} {b : Block}
    (found : classBlock? file m = some b) : b.CutFrom file := by
  simp only [classBlock?, Option.bind_eq_bind, Option.bind_eq_some_iff] at found
  obtain ⟨_, _, _, _, code, cut, made⟩ := found
  exact File.block?_cutFrom made (braceBlock?_isInfix cut) fun _ doc => Doc.prose_block? doc

theorem blocks_cutFrom {file : File} {b : Block} (member : b ∈ blocks file) : b.CutFrom file := by
  simp only [blocks, List.mem_append, List.mem_filterMap] at member
  rcases member with ((⟨_, _, found⟩ | ⟨_, _, found⟩) | ⟨_, _, found⟩) | ⟨_, _, found⟩
  · exact functionBlock?_cutFrom found
  · exact arrowBlock?_cutFrom found
  · exact typeBlock?_cutFrom found
  · exact classBlock?_cutFrom found

end Curly

namespace Go

theorem functionBlock?_cutFrom {file : File} {m : Found} {b : Block}
    (found : functionBlock? file m = some b) : b.CutFrom file := by
  simp only [functionBlock?, Option.bind_eq_bind, Option.bind_eq_some_iff] at found
  obtain ⟨_, _, _, _, code, cut, made⟩ := found
  exact File.block?_cutFrom made (braceBlock?_isInfix cut) fun _ doc => Doc.prose_line? doc

theorem typeBlock?_cutFrom {file : File} {m : Found} {b : Block}
    (found : typeBlock? file m = some b) : b.CutFrom file := by
  simp only [typeBlock?, Option.bind_eq_bind, Option.bind_eq_some_iff] at found
  obtain ⟨code, cut, made⟩ := found
  exact File.block?_cutFrom made (braceBlock?_isInfix cut) fun _ doc => Doc.prose_line? doc

theorem blocks_cutFrom {file : File} {b : Block} (member : b ∈ blocks file) : b.CutFrom file := by
  simp only [blocks, List.mem_append, List.mem_filterMap] at member
  rcases member with ⟨_, _, found⟩ | ⟨_, _, found⟩
  · exact functionBlock?_cutFrom found
  · exact typeBlock?_cutFrom found

end Go

namespace Rust

theorem functionBlock?_cutFrom {file : File} {m : Found} {b : Block}
    (found : functionBlock? file m = some b) : b.CutFrom file := by
  simp only [functionBlock?, Option.bind_eq_bind, Option.bind_eq_some_iff] at found
  obtain ⟨_, _, _, _, _, _, code, cut, made⟩ := found
  exact File.block?_cutFrom made (braceBlock?_isInfix cut) fun _ doc => Doc.prose_line? doc

theorem throughSemicolon?_isInfix {source code : List Char} {start stop : Nat}
    (found : throughSemicolon? source start stop = some code) : code <:+: source := by
  obtain ⟨_, _, rfl⟩ := Option.map_eq_some_iff.1 found
  exact slice_isInfix ..

theorem typeBlock?_cutFrom {file : File} {m : Found} {b : Block}
    (found : typeBlock? file m = some b) : b.CutFrom file := by
  simp only [typeBlock?, Option.bind_eq_bind] at found
  split at found
  · obtain ⟨code, cut, made⟩ := Option.bind_eq_some_iff.1 found
    exact File.block?_cutFrom made (braceBlock?_isInfix cut) fun _ doc => Doc.prose_line? doc
  · obtain ⟨code, cut, made⟩ := Option.bind_eq_some_iff.1 found
    exact File.block?_cutFrom made (throughSemicolon?_isInfix cut) fun _ doc => Doc.prose_line? doc

theorem implBlock?_cutFrom {file : File} {m : Found} {b : Block}
    (found : implBlock? file m = some b) : b.CutFrom file := by
  simp only [implBlock?, Option.bind_eq_bind, Option.bind_eq_some_iff] at found
  obtain ⟨_, _, code, cut, made⟩ := found
  exact File.block?_cutFrom made (braceBlock?_isInfix cut) fun _ doc => Doc.prose_line? doc

theorem blocks_cutFrom {file : File} {b : Block} (member : b ∈ blocks file) : b.CutFrom file := by
  simp only [blocks, List.mem_append, List.mem_filterMap] at member
  rcases member with (⟨_, _, found⟩ | ⟨_, _, found⟩) | ⟨_, _, found⟩
  · exact functionBlock?_cutFrom found
  · exact typeBlock?_cutFrom found
  · exact implBlock?_cutFrom found

end Rust

namespace Visibility

theorem functionBlock?_cutFrom {file : File} {m : Found} {b : Block}
    (found : functionBlock? file m = some b) : b.CutFrom file := by
  simp only [functionBlock?, Option.bind_eq_bind, Option.bind_eq_some_iff] at found
  obtain ⟨_, _, _, _, _, _, code, cut, made⟩ := found
  exact File.block?_cutFrom made (braceBlock?_isInfix cut) fun _ doc => by contradiction

theorem typeBlock?_cutFrom {file : File} {m : Found} {b : Block}
    (found : typeBlock? file m = some b) : b.CutFrom file := by
  simp only [typeBlock?, Option.bind_eq_bind, Option.bind_eq_some_iff] at found
  obtain ⟨_, _, _, _, code, cut, made⟩ := found
  exact File.block?_cutFrom made (braceBlock?_isInfix cut) fun _ doc => by contradiction

theorem blocks_cutFrom {file : File} {b : Block} (member : b ∈ blocks file) : b.CutFrom file := by
  simp only [blocks, List.mem_append, List.mem_filterMap] at member
  rcases member with ⟨_, _, found⟩ | ⟨_, _, found⟩
  · exact functionBlock?_cutFrom found
  · exact typeBlock?_cutFrom found

end Visibility

namespace Indented

theorem decorated_isInfix {ls part : List (List Char)} {start : Nat} (some : part ≠ [])
    (inside : part <+: ls.drop start) :
    joinLines ((ls.drop (start - decoratorCount (ls.take start).reverse)).take
      (decoratorCount (ls.take start).reverse) ++ [joinLines part]) <:+: joinLines ls := by
  have bounded : decoratorCount (ls.take start).reverse ≤ start := by
    have counted : decoratorCount (ls.take start).reverse ≤ (ls.take start).reverse.length :=
      (List.takeWhile_prefix _).length_le
    rw [List.length_reverse, List.length_take] at counted
    omega
  generalize decoratorCount (ls.take start).reverse = count at bounded ⊢
  have together : (ls.drop (start - count)).take count ++ part <:+: ls := by
    have below : (ls.drop (start - count)).drop count = ls.drop start := by
      rw [List.drop_drop]
      congr 1
      omega
    obtain ⟨rest, whole⟩ := inside
    have lead : (ls.drop (start - count)).take count ++ part <+: ls.drop (start - count) := by
      refine ⟨rest, ?_⟩
      rw [List.append_assoc, whole, ← below, List.take_append_drop]
    exact lead.isInfix.trans (List.drop_suffix ..).isInfix
  rw [joinLines_concat _ some]
  exact joinLines_isInfix together

theorem definitionBlock?_cutFrom {file : File} {m : Found} {b : Block}
    (found : definitionBlock? file (lines file.source) m = some b) : b.CutFrom file := by
  simp only [definitionBlock?] at found
  split at found
  · contradiction
  · obtain ⟨body, matched, made⟩ := Option.bind_eq_some_iff.1 found
    obtain ⟨part, some, inside, rfl⟩ := indentBlock?_lines matched
    refine File.block?_cutFrom made ?_ fun _ doc => Doc.prose_docstring? doc
    have cut := decorated_isInfix some inside
    rw [joinLines_lines] at cut
    exact cut

theorem blocks_cutFrom {file : File} {b : Block} (member : b ∈ blocks file) : b.CutFrom file := by
  simp only [blocks, List.mem_filterMap] at member
  obtain ⟨_, _, found⟩ := member
  exact definitionBlock?_cutFrom found

end Indented

theorem extractor_cutFrom (l : Language) {file : File} {b : Block}
    (member : b ∈ extractor l file) : b.CutFrom file := by
  cases l with
  | python => exact Indented.blocks_cutFrom member
  | rust => exact Rust.blocks_cutFrom member
  | go => exact Go.blocks_cutFrom member
  | swift => exact Visibility.blocks_cutFrom member
  | kotlin => exact Visibility.blocks_cutFrom member
  | typescript => exact Curly.blocks_cutFrom member
  | javascript => exact Curly.blocks_cutFrom member
  | text => exact Curly.blocks_cutFrom member

theorem ofFile?_cutFrom {file : File} {b : Block}
    (found : Block.ofFile? file.path file.source file.language = some b) : b.CutFrom file := by
  unfold Block.ofFile? at found
  split at found
  · contradiction
  · split at found
    · contradiction
    · exact File.block?_cutFrom found (List.infix_refl _) fun _ doc => by contradiction

def fileOf (file : SourceFile) : File :=
  ⟨file.path, file.content.toList, (Language.ofPath file.path).name⟩

theorem fileBlocks_cutFrom {file : SourceFile} {found : List Block}
    (cut : ∀ b ∈ found, b.CutFrom (fileOf file)) :
    ∀ b ∈ fileBlocks file found, b.CutFrom (fileOf file) := by
  intro b member
  simp only [fileBlocks] at member
  split at member
  · simp at member
  · cases found with
    | nil => exact ofFile?_cutFrom (Option.mem_toList.1 member)
    | cons first others => exact cut b member

theorem limited_of_mem_blocks {file : SourceFile} {b : Block} (member : b ∈ blocks file) :
    ∃ limit, (b.kind, limit) ∈ Block.ceilings := by
  have cut : b.CutFrom (fileOf file) := by
    refine fileBlocks_cutFrom (fun b declared => ?_) b member
    rw [declarations, Language.ofName_name] at declared
    exact extractor_cutFrom _ declared
  obtain ⟨limit, limited, _⟩ := cut.ceiling
  exact ⟨limit, limited⟩

theorem ofFile?_eq_none_iff (path : String) (content : List Char) (language : String) :
    Block.ofFile? path content language = none ↔
      allBlank content = true ∨ 40 < countLines content := by
  unfold Block.ofFile?
  by_cases blank : allBlank content = true
  · simp [blank]
  · by_cases long : 40 < countLines content
    · simp [blank, long]
    · have kept : trim content ≠ [] := by
        rw [Ne, trim_eq_nil_iff]
        exact blank
      have fewer := countLines_trim_le content
      have short : ¬ 40 < countLines (trim content) := by omega
      simp [blank, long, Block.ofCode?, BlockKind.lineLimit?, kept, short]

/-- Every block of a file, and of one whose extractor came to nothing, is cut from it. A file is
without blocks when it is blank, or too long for a single one and without declarations. -/
theorem blocks_cut (file : SourceFile) :
    (∀ b ∈ blocks file, b.CutFrom (fileOf file)) ∧
    (∀ b ∈ fileBlocks file [], b.CutFrom (fileOf file)) ∧
    (blocks file = [] ↔ allBlank file.content.toList = true ∨
      40 < countLines file.content.toList ∧
        declarations (Language.ofPath file.path).name file.path file.content.toList = []) := by
  have found : ∀ b ∈ declarations (Language.ofPath file.path).name file.path file.content.toList,
      b.CutFrom (fileOf file) := by
    intro b member
    rw [declarations, Language.ofName_name] at member
    exact extractor_cutFrom _ member
  refine ⟨fileBlocks_cutFrom found, fileBlocks_cutFrom (by simp), ?_⟩
  unfold blocks fileBlocks
  by_cases blank : allBlank file.content.toList = true
  · simp [blank]
  · cases declared : declarations (Language.ofPath file.path).name file.path file.content.toList with
    | nil => simp [blank, orWholeFile, ofFile?_eq_none_iff]
    | cons first others => simp [blank, orWholeFile]

def decoratedFile : SourceFile :=
  ⟨"lib/a.py", "@memo\ndef f():\n  \"\"\"Adds.\"\"\"\n  return 1\n"⟩

def decoratedBlock : Block :=
  { name := "f"
    kind := .function
    code := "@memo\ndef f():\n  \"\"\"Adds.\"\"\"\n  return 1"
    filePath := "lib/a.py"
    language := "python"
    docText := some "Adds."
    lineCount := 4 }

theorem decorated_block_cut :
    decoratedBlock ∈ blocks decoratedFile ∧ decoratedBlock.CutFrom (fileOf decoratedFile) := by
  have member : decoratedBlock ∈ blocks decoratedFile := by decide +kernel
  exact ⟨member, (blocks_cut decoratedFile).1 decoratedBlock member⟩

end Extract

end CodeDeck
