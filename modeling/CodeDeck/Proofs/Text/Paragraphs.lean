import CodeDeck.Text.Quoted
import CodeDeck.Text.Search
import Mathlib.Data.List.Chain

/-! Paragraphs of a text, with a blank line between two of them, and the text between two given ones. A text is one
paragraph when no two newlines follow each other in it. -/

namespace CodeDeck.Text

def paragraphs : List Char → List (List Char)
  | [] => [[]]
  | '\n' :: '\n' :: rest => [] :: paragraphs rest
  | c :: rest =>
    match paragraphs rest with
    | [] => [[c]]
    | first :: others => (c :: first) :: others

theorem paragraphs_prepend {line rest first : List Char} {others : List (List Char)}
    (single : '\n' ∉ line) (split : paragraphs rest = first :: others) :
    paragraphs (line ++ rest) = (line ++ first) :: others := by
  induction line with
  | nil => exact split
  | cons c front ih =>
    rw [List.mem_cons, not_or] at single
    rw [List.cons_append, paragraphs]
    · rw [ih single.2]
      rfl
    · intro rest' newline
      exact absurd newline.symm single.1

def IsParagraph (s : List Char) : Prop := s.IsChain fun c d => c = '\n' → d ≠ '\n'

instance (s : List Char) : Decidable (IsParagraph s) := inferInstanceAs (Decidable (List.IsChain _ s))

theorem paragraphs_of_isParagraph {s : List Char} (one : IsParagraph s) : paragraphs s = [s] := by
  induction s with
  | nil => rfl
  | cons c rest ih =>
    rw [paragraphs]
    · rw [ih (List.IsChain.tail one)]
    · rintro rest' rfl rfl
      exact (List.isChain_cons_cons.1 one).1 rfl rfl

section Joining

variable {front back line : List Char}

theorem IsParagraph.prepend (one : IsParagraph back) (single : '\n' ∉ line) : IsParagraph (line ++ back) := by
  refine List.isChain_append.2 ⟨?_, one, ?_⟩
  · induction line with
    | nil => exact List.IsChain.nil
    | cons c rest ih =>
      rw [List.mem_cons, not_or] at single
      exact List.isChain_cons.2 ⟨fun _ _ newline => absurd newline.symm single.1, ih single.2⟩
  · exact fun c last _ _ newline => absurd (newline ▸ List.mem_of_getLast? last) single

theorem isParagraph_of_notMem (single : '\n' ∉ line) : IsParagraph line :=
  List.append_nil line ▸ IsParagraph.prepend List.IsChain.nil single

theorem IsParagraph.append (one : IsParagraph front) (other : IsParagraph back) (apart : back.head? ≠ some '\n') :
    IsParagraph (front ++ back) := by
  refine List.isChain_append.2 ⟨one, other, fun _ _ d first _ newline => ?_⟩
  exact apart (newline ▸ first)

end Joining

section Quoted

theorem newline_notMem_hexDigits (width n : Nat) : '\n' ∉ hexDigits width n := by
  induction width generalizing n with
  | zero => exact List.not_mem_nil
  | succ width ih =>
    have figures : ∀ digit < 16, Nat.digitChar digit ≠ '\n' := by decide
    rw [hexDigits, List.mem_append, List.mem_singleton, not_or]
    exact ⟨ih _, (figures _ (Nat.mod_lt n (by decide))).symm⟩

theorem newline_notMem_escapeChar {quote : Char} (other : quote ≠ '\n') (c : Char) : '\n' ∉ escapeChar quote c := by
  have code : '\n' ∉ escapeCode c := by
    unfold escapeCode
    split
    · simp [newline_notMem_hexDigits]
    · split <;> simp [newline_notMem_hexDigits]
  unfold escapeChar
  split
  · next escaped =>
    have visible : c ≠ '\n' := by
      rintro rfl
      exact escaped.elim other.symm (by decide)
    simp [visible.symm]
  · split
    · decide
    · next visible =>
      split
      · decide
      · split
        · decide
        · split
          · simpa using Ne.symm visible
          · exact code

theorem newline_notMem_quoted (s : List Char) : '\n' ∉ quoted s := by
  have quote : enclosingQuote s ≠ '\n' := by
    unfold enclosingQuote
    split <;> decide
  unfold quoted
  simp only [List.cons_append, List.mem_cons, List.mem_append, List.mem_flatMap, List.not_mem_nil, or_false,
    not_or, not_exists, not_and]
  exact ⟨quote.symm, fun c _ => newline_notMem_escapeChar quote c, quote.symm⟩

end Quoted

theorem paragraphs_append {line : List Char} (single : '\n' ∉ line) (rest : List Char) :
    paragraphs (line ++ '\n' :: '\n' :: rest) = line :: paragraphs rest := by
  have gap : paragraphs ('\n' :: '\n' :: rest) = [] :: paragraphs rest := by rw [paragraphs]
  have whole := paragraphs_prepend single gap
  rwa [List.append_nil] at whole

def between? (front back s : List Char) : Option (List Char) :=
  if front.isPrefixOf s then dropSuffix? back (s.drop front.length) else none

theorem between?_append (front s back : List Char) : between? front back (front ++ s ++ back) = some s := by
  have starts : front.isPrefixOf (front ++ s ++ back) = true := by
    rw [List.isPrefixOf_iff_prefix, List.append_assoc]
    exact List.prefix_append ..
  rw [between?, if_pos starts, List.append_assoc, List.drop_left, dropSuffix?,
    if_pos (List.isSuffixOf_iff_suffix.2 (List.suffix_append ..))]
  simp

theorem between?_eq_none {c : Char} {s : List Char} (absent : c ∉ s) (front back : List Char) :
    between? (c :: front) back s = none := by
  refine if_neg fun starts => absent ?_
  exact (List.isPrefixOf_iff_prefix.1 starts).subset List.mem_cons_self

end CodeDeck.Text
