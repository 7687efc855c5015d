import CodeDeck.Proofs.Scan.Token

/-! Parentheses in a text with comments. The scan for the closing parenthesis reads the comments as code, so that it comes
to the right end where the text is balanced in this reading too. -/

namespace CodeDeck.Scan

open CodeDeck.Text

def Brackets.withComments (b : Brackets) (comments : Bool) : Brackets where
  opening := b.opening
  closing := b.closing
  quotes := b.quotes
  comments := comments
  different := b.different
  unquoted := b.unquoted
  noSlash := b.noSlash
  noStar := b.noStar
  noEscape := b.noEscape

variable {b : Brackets} {quotes s inside rest : List Char} {t : Token}

/-! The tokens of a balanced text. -/

theorem tokens_cons (found : token? quotes s = some (t, rest)) : tokens quotes s = t :: tokens quotes rest := by
  rw [tokens]
  split
  · next none =>
    rw [none] at found
    contradiction
  · next t' rest' some =>
    rw [some] at found
    obtain ⟨rfl, rfl⟩ := Prod.mk.inj (Option.some.inj found)
    rfl

theorem splitAt?_newline (oneLine : '\n' ∉ inside) : splitAt? ['\n'] (inside ++ '\n' :: rest) = some (inside, rest) := by
  induction inside with
  | nil => rfl
  | cons c more ih =>
    obtain ⟨first, others⟩ := not_or.1 (mt List.mem_cons.2 oneLine)
    have goesOn : ¬ ['\n'].isPrefixOf (c :: (more ++ '\n' :: rest)) = true := by simpa using first
    rw [List.cons_append, splitAt?, if_neg goesOn, ih others]
    rfl

theorem splitAt?_close (open_ : ¬ ['*', '/'] <:+: inside) :
    splitAt? ['*', '/'] (inside ++ '*' :: '/' :: rest) = some (inside, rest) := by
  induction inside with
  | nil => rfl
  | cons c more ih =>
    have others : ¬ ['*', '/'] <:+: more := fun within => open_ (within.trans (List.suffix_cons c more).isInfix)
    have goesOn : ¬ ['*', '/'].isPrefixOf (c :: (more ++ '*' :: '/' :: rest)) = true := by
      rw [List.isPrefixOf_iff_prefix, List.cons_prefix_cons]
      rintro ⟨rfl, slash⟩
      cases more with
      | nil => simp at slash
      | cons d later =>
        obtain ⟨rfl, _⟩ := List.cons_prefix_cons.1 slash
        exact open_ ⟨[], later, rfl⟩
    rw [List.cons_append, splitAt?, if_neg goesOn, ih others]
    rfl

theorem closeLiteral?_quoted {quote : Char} (single : quote ≠ '\\') (quoted : Quoted quote inside) :
    closeLiteral? quote (inside ++ quote :: rest) = some (inside, rest) := by
  induction quoted with
  | nil =>
    cases rest with
    | nil => simp [closeLiteral?]
    | cons d more => simp [closeLiteral?]
  | @plain c more open_ plain _ ih =>
    obtain ⟨d, behind, same⟩ := List.exists_cons_of_ne_nil (show more ++ quote :: rest ≠ [] by simp)
    rw [List.cons_append, same, closeLiteral?, if_neg open_, if_neg plain, ← same, ih]
    rfl
  | @escape c more _ ih =>
    rw [List.cons_append, List.cons_append, closeLiteral?, if_neg single.symm, if_pos rfl, ih]
    rfl

theorem tokens_literal {quote : Char} (member : quote ∈ b.quotes) (quoted : Quoted quote inside) :
    tokens b.quotes (quote :: (inside ++ quote :: rest)) = .literal quote inside :: tokens b.quotes rest := by
  have slash : quote ≠ '/' := fun same => b.noSlash.2.2 (same ▸ member)
  have single : quote ≠ '\\' := fun same => b.noEscape (same ▸ member)
  apply tokens_cons
  unfold token?
  split
  · contradiction
  · next same => exact absurd (List.cons.inj same).1 slash
  · next same => exact absurd (List.cons.inj same).1 slash
  · next same =>
    obtain ⟨rfl, rfl⟩ := List.cons.inj same
    rw [if_pos member, closeLiteral?_quoted single quoted]
    rfl

theorem tokens_lineComment (oneLine : '\n' ∉ inside) :
    tokens quotes ('/' :: '/' :: (inside ++ '\n' :: rest)) = .lineComment inside :: tokens quotes rest := by
  apply tokens_cons
  rw [token?, splitAt?_newline oneLine]
  rfl

theorem tokens_blockComment (open_ : ¬ ['*', '/'] <:+: inside) :
    tokens quotes ('/' :: '*' :: (inside ++ '*' :: '/' :: rest)) = .blockComment inside :: tokens quotes rest := by
  apply tokens_cons
  rw [token?, splitAt?_close open_]
  rfl

theorem tokens_single {c : Char} (plain : c ∉ quotes)
    (alone : c = '/' → rest.head? ≠ some '/' ∧ rest.head? ≠ some '*') :
    tokens quotes (c :: rest) = .single c :: tokens quotes rest := by
  apply tokens_cons
  unfold token?
  split
  · contradiction
  · next same =>
    obtain ⟨rfl, rfl⟩ := List.cons.inj same
    exact absurd rfl (alone rfl).1
  · next same =>
    obtain ⟨rfl, rfl⟩ := List.cons.inj same
    exact absurd rfl (alone rfl).2
  · next same =>
    obtain ⟨rfl, rfl⟩ := List.cons.inj same
    rw [if_neg plain]

theorem tokens_opening : tokens b.quotes (b.opening :: rest) = .single b.opening :: tokens b.quotes rest :=
  tokens_single b.unquoted.1 fun same => absurd same b.noSlash.1

theorem tokens_closing : tokens b.quotes (b.closing :: rest) = .single b.closing :: tokens b.quotes rest :=
  tokens_single b.unquoted.2 fun same => absurd same b.noSlash.2.1

theorem tokens_balanced (known : b.comments = true) (balanced : Balanced b s) (rest : List Char) :
    tokens b.quotes (s ++ b.closing :: rest) = tokens b.quotes s ++ .single b.closing :: tokens b.quotes rest := by
  induction balanced generalizing rest with
  | nil =>
    have none : tokens b.quotes [] = [] := by
      rw [tokens]
      rfl
    rw [none]
    exact tokens_closing
  | @plain c more free alone _ ih =>
    have ahead (d : Char) (other : b.closing ≠ d) (absent : more.head? ≠ some d) :
        (more ++ b.closing :: rest).head? ≠ some d := by
      cases more with
      | nil => simpa using other
      | cons e later => simpa using absent
    have alone' : c = '/' →
        (more ++ b.closing :: rest).head? ≠ some '/' ∧ (more ++ b.closing :: rest).head? ≠ some '*' := by
      intro slash
      obtain ⟨noSecond, noStar⟩ := alone known slash
      exact ⟨ahead '/' b.noSlash.2.1 noSecond, ahead '*' b.noStar noStar⟩
    rw [List.cons_append, tokens_single free.2.2 alone', ih, tokens_single free.2.2 (alone known)]
    rfl
  | literal quotes quoted _ ih =>
    rw [List.cons_append, List.append_assoc, List.cons_append, tokens_literal quotes quoted, ih,
      tokens_literal quotes quoted]
    rfl
  | lineComment _ oneLine _ ih =>
    rw [List.cons_append, List.cons_append, List.append_assoc, List.cons_append, tokens_lineComment oneLine, ih,
      tokens_lineComment oneLine]
    rfl
  | blockComment _ open_ _ ih =>
    rw [List.cons_append, List.cons_append, List.append_assoc, List.cons_append, List.cons_append,
      tokens_blockComment open_, ih, tokens_blockComment open_]
    rfl
  | nested _ _ ih ih' =>
    rw [List.cons_append, List.append_assoc, List.cons_append, tokens_opening, ih, ih', tokens_opening, ih]
    simp

/-! A comment whose own text is balanced does no harm. -/

def Token.comment? : Token → Option (List Char)
  | lineComment inside => some inside
  | blockComment inside => some inside
  | _ => none

def comments (quotes s : List Char) : List (List Char) := (tokens quotes s).filterMap Token.comment?

theorem comments_nested (known : b.comments = true) (within : Balanced b inside) (rest : List Char) :
    comments b.quotes (b.opening :: (inside ++ b.closing :: rest)) =
      comments b.quotes inside ++ comments b.quotes rest := by
  rw [comments, tokens_opening, tokens_balanced known within, List.filterMap_cons_none rfl, List.filterMap_append,
    List.filterMap_cons_none rfl]
  rfl

section Unknown

variable (unknown : b.comments = false)
include unknown

/-- Where comments are not known, a character that is no bracket and no quote can stand anywhere. -/
theorem Balanced.mark {c : Char} (free : c ≠ b.opening ∧ c ≠ b.closing ∧ c ∉ b.quotes) (behind : Balanced b s) :
    Balanced b (c :: s) := by
  apply Balanced.plain free _ behind
  intro known
  rw [unknown] at known
  contradiction

theorem Balanced.append {t : List Char} (first : Balanced b s) (second : Balanced b t) : Balanced b (s ++ t) := by
  induction first with
  | nil => exact second
  | plain free _ _ ih => exact ih.mark unknown free
  | literal quotes quoted _ ih =>
    rw [List.cons_append, List.append_assoc, List.cons_append]
    exact .literal quotes quoted ih
  | lineComment known =>
    rw [unknown] at known
    contradiction
  | blockComment known =>
    rw [unknown] at known
    contradiction
  | nested within _ _ ih =>
    rw [List.cons_append, List.append_assoc, List.cons_append]
    exact .nested within ih

/-- A text is balanced when its comments are, each for itself. -/
theorem Balanced.of_comments (marks : ∀ c ∈ ['/', '*', '\n'], c ≠ b.opening ∧ c ≠ b.closing ∧ c ∉ b.quotes)
    (balanced : Balanced (b.withComments true) s) (harmless : ∀ comment ∈ comments b.quotes s, Balanced b comment) :
    Balanced b s := by
  obtain ⟨slash, star, newline, _⟩ := by simpa only [List.forall_mem_cons] using marks
  have known : (b.withComments true).comments = true := rfl
  have sameQuotes : (b.withComments true).quotes = b.quotes := rfl
  induction balanced with
  | nil => exact .nil
  | plain free alone _ ih =>
    rw [← sameQuotes, comments, tokens_single free.2.2 (alone known)] at harmless
    exact (ih harmless).mark unknown free
  | literal quotes quoted _ ih =>
    rw [← sameQuotes, comments, tokens_literal quotes quoted] at harmless
    exact .literal quotes quoted (ih harmless)
  | @lineComment inside rest _ oneLine _ ih =>
    rw [comments, tokens_lineComment oneLine] at harmless
    obtain ⟨own, others⟩ := List.forall_mem_cons.1 harmless
    have behind : Balanced b ('\n' :: rest) := (ih others).mark unknown newline
    exact ((own.append unknown behind).mark unknown slash).mark unknown slash
  | @blockComment inside rest _ open_ _ ih =>
    rw [comments, tokens_blockComment open_] at harmless
    obtain ⟨own, others⟩ := List.forall_mem_cons.1 harmless
    have behind : Balanced b ('*' :: '/' :: rest) := ((ih others).mark unknown slash).mark unknown star
    exact ((own.append unknown behind).mark unknown star).mark unknown slash
  | nested within _ ih ih' =>
    rw [← sameQuotes, comments_nested known within] at harmless
    obtain ⟨inner, outer⟩ := List.forall_mem_append.1 harmless
    exact .nested (ih inner) (ih' outer)

end Unknown

/-! The scan for the closing parenthesis. -/

section Parens

variable (admitted : parens.Admits quotes)

def commentedParens : Brackets := (parens.withQuotes quotes admitted).withComments true

theorem closingParen?_unit_iff (inside before rest : List Char) :
    closingParen? (before ++ '(' :: (inside ++ ')' :: rest)) before.length quotes =
        some (before.length + inside.length + 2) ↔
      Balanced (parens.withQuotes quotes admitted) inside := by
  constructor
  · rw [closingParen?, List.drop_left]
    intro found
    have ends : unitEnd (parens.withQuotes quotes admitted) .code 0 before.length ('(' :: (inside ++ ')' :: rest)) =
        some (before.length + inside.length + 2) := by
      rw [← parenEnd_eq admitted]
      exact found
    obtain ⟨inside', rest', same, balanced, stop⟩ := unitEnd_eq_some_iff.1 ends
    have length : inside.length = inside'.length := by omega
    rw [List.append_inj_left same length]
    exact balanced
  · intro balanced
    exact closingParen?_unit admitted balanced before rest

/-- The scan finds the end of parentheses that are balanced apart from their comments just when they are balanced with
the comments read as code, as they are when the text of each comment is balanced by itself. -/
theorem closingParen?_commented (marks : '*' ∉ quotes ∧ '\n' ∉ quotes)
    (balanced : Balanced (commentedParens admitted) inside) (before rest : List Char) :
    (closingParen? (before ++ '(' :: (inside ++ ')' :: rest)) before.length quotes =
        some (before.length + inside.length + 2) ↔
      Balanced (parens.withQuotes quotes admitted) inside) ∧
    ((∀ comment ∈ comments quotes inside, Balanced (parens.withQuotes quotes admitted) comment) →
      Balanced (parens.withQuotes quotes admitted) inside) := by
  refine ⟨closingParen?_unit_iff admitted inside before rest, fun harmless => ?_⟩
  have free : ∀ c ∈ ['/', '*', '\n'], c ≠ '(' ∧ c ≠ ')' ∧ c ∉ quotes := by
    simp only [List.forall_mem_cons]
    refine ⟨⟨by decide, by decide, admitted.2.2.1⟩, ⟨by decide, by decide, marks.1⟩, ⟨by decide, by decide, marks.2⟩, ?_⟩
    exact fun c none => absurd none List.not_mem_nil
  exact Balanced.of_comments rfl free balanced harmless

end Parens

theorem admits_defaultQuotes : parens.Admits defaultQuotes := by decide

def describedParameters : List Char := "a, // (id)\n b /* 'x' */".toList

theorem described_parameters_closed :
    parens.Admits defaultQuotes ∧ ('*' ∉ defaultQuotes ∧ '\n' ∉ defaultQuotes) ∧
    Balanced (commentedParens admits_defaultQuotes) describedParameters ∧
    (∀ comment ∈ comments defaultQuotes describedParameters, Balanced parens comment) ∧
    closingParen? (['f'] ++ '(' :: (describedParameters ++ ')' :: [' '])) 1 defaultQuotes = some 26 := by
  have marks : '*' ∉ defaultQuotes ∧ '\n' ∉ defaultQuotes := by decide
  have balanced : Balanced (commentedParens admits_defaultQuotes) describedParameters := by decide
  have texts : comments defaultQuotes describedParameters = [" (id)".toList, " 'x' ".toList] := by cbv
  have harmless : ∀ comment ∈ comments defaultQuotes describedParameters, Balanced parens comment := by
    rw [texts, List.forall_mem_cons, List.forall_mem_singleton]
    exact ⟨by decide, by decide⟩
  have closed := closingParen?_commented admits_defaultQuotes marks balanced ['f'] [' ']
  exact ⟨admits_defaultQuotes, marks, balanced, harmless, closed.1.2 (closed.2 harmless)⟩

/-- A quote in a comment hides the closing parenthesis, and a parenthesis in a comment is taken for it. -/
theorem comment_ends_parameters :
    (Balanced (commentedParens admits_defaultQuotes) "a /* it's */".toList ∧
      closingParen? "(a /* it's */)".toList 0 defaultQuotes = none) ∧
    (Balanced (commentedParens admits_defaultQuotes) "a, // :)\n b".toList ∧
      closingParen? "(a, // :)\n b)".toList 0 defaultQuotes = some 9) := by
  refine ⟨⟨?_, ?_⟩, ?_, ?_⟩
  all_goals decide

end CodeDeck.Scan
