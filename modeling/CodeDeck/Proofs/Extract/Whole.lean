import CodeDeck.Proofs.Extract.Cut
import CodeDeck.Proofs.Text.Search

/-!
A file without declarations becomes one block as a whole. The block is as long as its trimmed text,
but the limit is set on all lines of the file: a blank line in front of the text can cost a file of
forty lines its block, and so can the newline at its end.
-/

namespace CodeDeck

open CodeDeck.Text

namespace Text

theorem getLast?_splitOn (separator : Char) (s : List Char) :
    (splitOn separator s).getLast? = some (afterLast separator s) := by
  by_cases inside : separator ∈ s
  · obtain ⟨front, cut⟩ := exists_append_afterLast inside
    have free := notMem_afterLast separator s
    generalize afterLast separator s = last at cut free
    rw [cut, splitOn_append, splitOn_of_notMem free, List.getLast?_concat]
  · rw [splitOn_of_notMem inside, afterLast_of_notMem inside, List.getLast?_singleton]

end Text

namespace Extract

def fileName (path : List Char) : List Char :=
  match (splitOn '/' path).getLast? with
  | none | some [] => path
  | some name => name

def wholeLimit : Nat := 40

def wholeFile (file : SourceFile) : List Block :=
  let code := trim file.content.toList
  if code ≠ [] ∧ (lines code).length ≤ wholeLimit then
    [{ name := String.ofList (fileName file.path.toList)
       kind := .file
       code := String.ofList code
       filePath := file.path
       language := (Language.ofPath file.path).name
       docText := none
       lineCount := (lines code).length }]
  else []

/-- Blank lines around the text make a file too long whose text is not. -/
def Padded (file : SourceFile) : Prop :=
  trim file.content.toList ≠ [] ∧ (lines (trim file.content.toList)).length ≤ wholeLimit ∧
    wholeLimit < (lines file.content.toList).length

instance (file : SourceFile) : Decidable (Padded file) := inferInstanceAs (Decidable (_ ∧ _ ∧ _))

theorem wholeFile_ne_nil {file : SourceFile} (padded : Padded file) : wholeFile file ≠ [] := by
  simp [wholeFile, padded.1, padded.2.1]

theorem ofFile?_short (file : SourceFile) (short : (lines file.content.toList).length ≤ wholeLimit)
    (inked : trim file.content.toList ≠ []) :
    (Block.ofFile? file.path file.content.toList (Language.ofPath file.path).name).toList =
      wholeFile file := by
  have notBlank : ¬ allBlank file.content.toList = true := mt (trim_eq_nil_iff _).2 inked
  rw [length_lines, wholeLimit] at short
  have within : countLines (trim file.content.toList) ≤ 40 := (countLines_trim_le _).trans short
  rw [wholeFile, if_pos ⟨inked, by rwa [length_lines]⟩, Block.ofFile?, if_neg notBlank,
    if_neg (Nat.not_lt.2 short), Block.ofCode?, if_neg inked]
  simp only [BlockKind.lineLimit?, if_neg (Nat.not_lt.2 within), Option.toList_some, length_lines]
  rw [fileName, getLast?_splitOn, Path.baseName]
  cases afterLast '/' file.path.toList <;> rfl

theorem fileBlocks_nil (file : SourceFile) :
    fileBlocks file [] = if wholeLimit < (lines file.content.toList).length then [] else wholeFile file := by
  have step : fileBlocks file [] =
      (Block.ofFile? file.path file.content.toList (Language.ofPath file.path).name).toList := by
    rw [fileBlocks]
    split
    · next blank => rw [(ofFile?_eq_none_iff ..).2 (.inl blank), Option.toList_none]
    · rfl
  rw [step]
  split
  · next long =>
    rw [length_lines] at long
    rw [(ofFile?_eq_none_iff ..).2 (.inr long), Option.toList_none]
  · next short =>
    by_cases inked : trim file.content.toList = []
    · rw [(ofFile?_eq_none_iff ..).2 (.inl ((trim_eq_nil_iff _).1 inked)), Option.toList_none, wholeFile,
        if_neg fun both => both.1 inked]
    · exact ofFile?_short file (Nat.le_of_not_lt short) inked

theorem fileBlocks_nil_iff (file : SourceFile) :
    fileBlocks file [] = wholeFile file ↔ ¬ Padded file := by
  rw [fileBlocks_nil]
  constructor
  · intro same padded
    rw [if_pos padded.2.2] at same
    exact wholeFile_ne_nil padded same.symm
  · intro bare
    split
    · next long =>
      refine (if_neg ?_).symm
      rintro ⟨inked, within⟩
      exact bare ⟨inked, within, long⟩
    · rfl

/-- A file in which nothing is declared, or whose extractor came to nothing, becomes a block exactly
as its text demands, unless blank lines around the text make it too long. -/
theorem blocks_whole_iff (file : SourceFile) :
    (fileBlocks file [] = wholeFile file ↔ ¬ Padded file) ∧
    (declarations (Language.ofPath file.path).name file.path file.content.toList = [] →
      (blocks file = wholeFile file ↔ ¬ Padded file)) := by
  refine ⟨fileBlocks_nil_iff file, ?_⟩
  intro undeclared
  rw [blocks, undeclared]
  exact fileBlocks_nil_iff file

def spacedFile : SourceFile :=
  ⟨"docs/notes.txt", String.ofList ('\n' :: linesAbove (List.replicate 38 "x".toList))⟩

theorem spaced_file_whole :
    declarations (Language.ofPath spacedFile.path).name spacedFile.path spacedFile.content.toList = [] ∧
    (wholeFile spacedFile).map (fun b => (b.name, b.lineCount)) = [("notes.txt", 38)] ∧
    blocks spacedFile = wholeFile spacedFile := by
  have undeclared : declarations (Language.ofPath spacedFile.path).name spacedFile.path
      spacedFile.content.toList = [] := by decide +kernel
  exact ⟨undeclared, by decide +kernel, ((blocks_whole_iff spacedFile).2 undeclared).2 (by decide +kernel)⟩

def endedFile : SourceFile :=
  ⟨"notes.txt", String.ofList (linesAbove (List.replicate 40 "x".toList))⟩

def loweredFile : SourceFile :=
  ⟨"notes.txt", String.ofList (linesBelow (List.replicate 40 "x".toList))⟩

theorem surrounding_newline_costs_block :
    (declarations (Language.ofPath endedFile.path).name endedFile.path endedFile.content.toList = [] ∧
      (wholeFile endedFile).map (fun b => (b.name, b.lineCount)) = [("notes.txt", 40)] ∧
      blocks endedFile = [] ∧ fileBlocks endedFile [] = []) ∧
    (declarations (Language.ofPath loweredFile.path).name loweredFile.path loweredFile.content.toList = [] ∧
      (wholeFile loweredFile).map (fun b => (b.name, b.lineCount)) = [("notes.txt", 40)] ∧
      blocks loweredFile = [] ∧ fileBlocks loweredFile [] = []) := by
  decide +kernel

end Extract

end CodeDeck
