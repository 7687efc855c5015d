import CodeDeck.Scan.Body
import CodeDeck.Scan.Brace
import CodeDeck.Scan.Paren
import Mathlib.Data.List.Infix

/-! Balanced text, as a grammar of brackets, quoted literals and comments. A scan for the end of a bracketed
unit stops behind a balanced inside, and nowhere else. -/

namespace CodeDeck.Scan

/-- A pair of brackets, with the quotes of literals and whether comments are known. -/
structure Brackets where
  opening : Char
  closing : Char
  quotes : List Char
  comments : Bool
  different : opening ≠ closing
  unquoted : opening ∉ quotes ∧ closing ∉ quotes
  noSlash : opening ≠ '/' ∧ closing ≠ '/' ∧ '/' ∉ quotes
  noStar : closing ≠ '*'
  noEscape : '\\' ∉ quotes

def braces : Brackets where
  opening := '\x7b'
  closing := '\x7d'
  quotes := defaultQuotes
  comments := true
  different := by decide
  unquoted := by decide
  noSlash := by decide
  noStar := by decide
  noEscape := by decide

def parens : Brackets where
  opening := '('
  closing := ')'
  quotes := defaultQuotes
  comments := false
  different := by decide
  unquoted := by decide
  noSlash := by decide
  noStar := by decide
  noEscape := by decide

namespace Brackets

/-- May these characters be the quotes of a text with the brackets? -/
def Admits (b : Brackets) (quotes : List Char) : Prop :=
  b.opening ∉ quotes ∧ b.closing ∉ quotes ∧ '/' ∉ quotes ∧ '\\' ∉ quotes

instance (b : Brackets) (quotes : List Char) : Decidable (b.Admits quotes) :=
  inferInstanceAs (Decidable (b.opening ∉ quotes ∧ b.closing ∉ quotes ∧ '/' ∉ quotes ∧ '\\' ∉ quotes))

def withQuotes (b : Brackets) (quotes : List Char) (admitted : b.Admits quotes) : Brackets where
  opening := b.opening
  closing := b.closing
  quotes := quotes
  comments := b.comments
  different := b.different
  unquoted := ⟨admitted.1, admitted.2.1⟩
  noSlash := ⟨b.noSlash.1, b.noSlash.2.1, admitted.2.2.1⟩
  noStar := b.noStar
  noEscape := admitted.2.2.2

end Brackets

/-- The inside of a literal: a quote and a backslash stand only behind a backslash. -/
inductive Quoted (quote : Char) : List Char → Prop
  | nil : Quoted quote []
  | plain {c : Char} {rest : List Char} (open_ : c ≠ quote) (single : c ≠ '\\') (behind : Quoted quote rest) :
      Quoted quote (c :: rest)
  | escape {c : Char} {rest : List Char} (behind : Quoted quote rest) : Quoted quote ('\\' :: c :: rest)

/-- Brackets outside literals and comments come in pairs. A slash alone is one that opens no comment. -/
inductive Balanced (b : Brackets) : List Char → Prop
  | nil : Balanced b []
  | plain {c : Char} {rest : List Char} (free : c ≠ b.opening ∧ c ≠ b.closing ∧ c ∉ b.quotes)
      (alone : b.comments = true → c = '/' → rest.head? ≠ some '/' ∧ rest.head? ≠ some '*')
      (behind : Balanced b rest) : Balanced b (c :: rest)
  | literal {quote : Char} {inside rest : List Char} (quotes : quote ∈ b.quotes)
      (quoted : Quoted quote inside) (behind : Balanced b rest) :
      Balanced b (quote :: (inside ++ quote :: rest))
  | lineComment {inside rest : List Char} (known : b.comments = true) (oneLine : '\n' ∉ inside)
      (behind : Balanced b rest) : Balanced b ('/' :: '/' :: (inside ++ '\n' :: rest))
  | blockComment {inside rest : List Char} (known : b.comments = true) (open_ : ¬ ['*', '/'] <:+: inside)
      (behind : Balanced b rest) : Balanced b ('/' :: '*' :: (inside ++ '*' :: '/' :: rest))
  | nested {inside rest : List Char} (within : Balanced b inside) (behind : Balanced b rest) :
      Balanced b (b.opening :: (inside ++ b.closing :: rest))

/-- Offset just past the bracket that closes the first unit of the text that starts at offset `i` in the
given region, where `depth` brackets are open. -/
def unitEnd (b : Brackets) : Region → (depth i : Nat) → List Char → Option Nat
  | _, _, _, [] => none
  | region, depth, i, c :: rest =>
    if region = .code ∧ c = b.opening then unitEnd b .code (depth + 1) (i + 1) rest
    else if region = .code ∧ c = b.closing then
      if depth = 1 then some (i + 1) else unitEnd b .code (depth - 1) (i + 1) rest
    else unitEnd b (region.next b.quotes b.comments c rest.head?) depth (i + 1) rest

section Quotes

variable {quotes : List Char}

theorem braceEnd_eq (admitted : braces.Admits quotes) (region : Region) (depth i : Nat) (s : List Char) :
    braceEnd quotes region depth i s = unitEnd (braces.withQuotes quotes admitted) region depth i s := by
  induction s generalizing region depth i with
  | nil => rfl
  | cons c rest ih =>
    rw [braceEnd, unitEnd, ih, ih, ih]
    rfl

theorem parenEnd_eq (admitted : parens.Admits quotes) (region : Region) (depth i : Nat) (s : List Char) :
    parenEnd quotes region depth i s = unitEnd (parens.withQuotes quotes admitted) region depth i s := by
  induction s generalizing region depth i with
  | nil => rfl
  | cons c rest ih =>
    rw [parenEnd, unitEnd, ih, ih, ih]
    rfl

end Quotes

theorem braceEnd_default (region : Region) (depth i : Nat) (s : List Char) :
    braceEnd defaultQuotes region depth i s = unitEnd braces region depth i s :=
  braceEnd_eq (by decide) region depth i s

variable {b : Brackets} {quote c : Char} {depth i stop : Nat} {s inside rest : List Char}

/-! One character of a scan. -/

theorem unitEnd_opening :
    unitEnd b .code depth i (b.opening :: rest) = unitEnd b .code (depth + 1) (i + 1) rest := by
  simp [unitEnd]

theorem unitEnd_closing :
    unitEnd b .code (depth + 2) i (b.closing :: rest) = unitEnd b .code (depth + 1) (i + 1) rest := by
  simp [unitEnd, b.different.symm]

theorem unitEnd_last : unitEnd b .code 1 i (b.closing :: rest) = some (i + 1) := by
  simp [unitEnd, b.different.symm]

theorem unitEnd_free (free : c ≠ b.opening ∧ c ≠ b.closing) :
    unitEnd b .code depth i (c :: rest) =
      unitEnd b (Region.code.next b.quotes b.comments c rest.head?) depth (i + 1) rest := by
  simp [unitEnd, free]

theorem unitEnd_hidden {region : Region} (hidden : region ≠ .code) :
    unitEnd b region depth i (c :: rest) =
      unitEnd b (region.next b.quotes b.comments c rest.head?) depth (i + 1) rest := by
  simp [unitEnd, hidden]

theorem next_quote (quotes : quote ∈ b.quotes) (ahead : Option Char) :
    Region.code.next b.quotes b.comments quote ahead = .literal quote := by
  simp [Region.next, quotes]

theorem next_eq_code_iff (ahead : Option Char) :
    Region.code.next b.quotes b.comments c ahead = .code ↔
      c ∉ b.quotes ∧ (b.comments = true → c = '/' → ahead ≠ some '/' ∧ ahead ≠ some '*') := by
  by_cases quotes : c ∈ b.quotes
  · simp [Region.next, quotes]
  · by_cases slash : b.comments = true ∧ c = '/'
    · by_cases second : ahead = some '/'
      · simp [Region.next, slash, second, b.noSlash.2.2]
      · by_cases star : ahead = some '*'
        · simp [Region.next, slash, star, b.noSlash.2.2]
        · simp [Region.next, slash, second, star, b.noSlash.2.2]
    · have stays : Region.code.next b.quotes b.comments c ahead = .code := by
        simp [Region.next, quotes, slash]
      simp only [stays, true_iff]
      exact ⟨quotes, fun known same => absurd ⟨known, same⟩ slash⟩

/-! Literals and comments are passed over. -/

theorem unitEnd_literal (quoted : Quoted quote inside) (quotes : quote ∈ b.quotes) :
    unitEnd b (.literal quote) depth i (inside ++ quote :: rest) =
      unitEnd b .code depth (i + inside.length + 1) rest := by
  induction quoted generalizing i with
  | nil => simp [unitEnd_hidden, Region.next]
  | plain open_ single _ ih =>
    rw [List.cons_append, unitEnd_hidden Region.noConfusion]
    simp only [Region.next, open_, single, if_false]
    rw [ih, List.length_cons]
    congr 1
    omega
  | escape _ ih =>
    have other : '\\' ≠ quote := fun same => b.noEscape (same ▸ quotes)
    rw [List.cons_append, List.cons_append, unitEnd_hidden Region.noConfusion]
    simp only [Region.next, other, if_false, if_true]
    rw [unitEnd_hidden Region.noConfusion]
    simp only [Region.next]
    rw [ih, List.length_cons, List.length_cons]
    congr 1
    omega

theorem unitEnd_lineComment (oneLine : '\n' ∉ inside) :
    unitEnd b .lineComment depth i (inside ++ '\n' :: rest) =
      unitEnd b .code depth (i + inside.length + 1) rest := by
  induction inside generalizing i with
  | nil => simp [unitEnd_hidden, Region.next]
  | cons c more ih =>
    obtain ⟨first, others⟩ := not_or.1 (mt List.mem_cons.2 oneLine)
    rw [List.cons_append, unitEnd_hidden Region.noConfusion]
    simp only [Region.next, Ne.symm first, if_false]
    rw [ih others, List.length_cons]
    congr 1
    omega

theorem unitEnd_blockComment (open_ : ¬ ['*', '/'] <:+: inside) :
    unitEnd b .blockComment depth i (inside ++ '*' :: '/' :: rest) =
      unitEnd b .code depth (i + inside.length + 2) rest := by
  induction inside generalizing i with
  | nil => simp [unitEnd_hidden, Region.next]
  | cons c more ih =>
    have goesOn : ¬ (c = '*' ∧ (more ++ '*' :: '/' :: rest).head? = some '/') := by
      rintro ⟨rfl, ahead⟩
      cases more with
      | nil => simp at ahead
      | cons d later =>
        have slash : d = '/' := by simpa using ahead
        exact open_ ⟨[], later, by rw [slash]; rfl⟩
    have others : ¬ ['*', '/'] <:+: more := fun inside => open_ (inside.trans (List.suffix_cons c more).isInfix)
    rw [List.cons_append, unitEnd_hidden Region.noConfusion]
    simp only [Region.next, goesOn, if_false]
    rw [ih others, List.length_cons]
    congr 1
    omega

theorem unitEnd_balanced (balanced : Balanced b s) (depth i : Nat) (rest : List Char) :
    unitEnd b .code (depth + 1) i (s ++ b.closing :: rest) =
      unitEnd b .code (depth + 1) (i + s.length) (b.closing :: rest) := by
  induction balanced generalizing depth i rest with
  | nil => rfl
  | @plain c more free alone _ ih =>
    obtain ⟨noOpening, noClosing, noQuote⟩ := free
    have ahead (d : Char) (other : b.closing ≠ d) (absent : more.head? ≠ some d) :
        (more ++ b.closing :: rest).head? ≠ some d := by
      cases more with
      | nil => simpa using other
      | cons e later => simpa using absent
    have stays : Region.code.next b.quotes b.comments c (more ++ b.closing :: rest).head? = .code := by
      apply (next_eq_code_iff _).2
      refine ⟨noQuote, ?_⟩
      intro known slash
      obtain ⟨noSecond, noStar⟩ := alone known slash
      exact ⟨ahead '/' b.noSlash.2.1 noSecond, ahead '*' b.noStar noStar⟩
    rw [List.cons_append, unitEnd_free ⟨noOpening, noClosing⟩, stays, ih, List.length_cons]
    congr 1
    omega
  | @literal quote inside more quotes quoted _ ih =>
    have free : quote ≠ b.opening ∧ quote ≠ b.closing :=
      ⟨fun same => b.unquoted.1 (same ▸ quotes), fun same => b.unquoted.2 (same ▸ quotes)⟩
    rw [List.cons_append, List.append_assoc, List.cons_append, unitEnd_free free, next_quote quotes,
      unitEnd_literal quoted quotes, ih]
    congr 1
    simp only [List.length_cons, List.length_append]
    omega
  | @lineComment inside more known oneLine _ ih =>
    have free : '/' ≠ b.opening ∧ '/' ≠ b.closing := ⟨b.noSlash.1.symm, b.noSlash.2.1.symm⟩
    have opens : Region.code.next b.quotes b.comments '/' (some '/') = .lineComment := by
      simp [Region.next, known, b.noSlash.2.2]
    rw [List.cons_append, List.cons_append, unitEnd_free free, List.head?_cons, opens,
      unitEnd_hidden Region.noConfusion]
    simp only [Region.next, show ('/' : Char) ≠ '\n' by decide, if_false]
    rw [List.append_assoc, List.cons_append, unitEnd_lineComment oneLine, ih]
    congr 1
    simp only [List.length_cons, List.length_append]
    omega
  | @blockComment inside more known open_ _ ih =>
    have free : '/' ≠ b.opening ∧ '/' ≠ b.closing := ⟨b.noSlash.1.symm, b.noSlash.2.1.symm⟩
    have opens : Region.code.next b.quotes b.comments '/' (some '*') = .commentOpen := by
      simp [Region.next, known, b.noSlash.2.2]
    rw [List.cons_append, List.cons_append, unitEnd_free free, List.head?_cons, opens,
      unitEnd_hidden Region.noConfusion]
    simp only [Region.next]
    rw [List.append_assoc, List.cons_append, List.cons_append, unitEnd_blockComment open_, ih]
    congr 1
    simp only [List.length_cons, List.length_append]
    omega
  | @nested inside more _ _ ih ih' =>
    rw [List.cons_append, List.append_assoc, List.cons_append, unitEnd_opening, ih, unitEnd_closing, ih']
    congr 1
    simp only [List.length_cons, List.length_append]
    omega

/-! Conversely, what a scan passes over is a literal, a comment or balanced. -/

theorem exists_quoted : ∀ {s : List Char} {i : Nat},
    unitEnd b (.literal quote) depth i s = some stop →
    ∃ inside rest, s = inside ++ quote :: rest ∧ Quoted quote inside ∧
      unitEnd b .code depth (i + inside.length + 1) rest = some stop
  | [], _, found => by simp [unitEnd] at found
  | c :: rest, i, found => by
    rw [unitEnd_hidden Region.noConfusion] at found
    by_cases closes : c = quote
    · subst closes
      simp only [Region.next, if_true] at found
      exact ⟨[], rest, rfl, .nil, found⟩
    · by_cases escapes : c = '\\'
      · subst escapes
        simp only [Region.next, closes, if_false, if_true] at found
        cases rest with
        | nil => simp [unitEnd] at found
        | cons d behind =>
          rw [unitEnd_hidden Region.noConfusion] at found
          obtain ⟨inside, rest, same, quoted, later⟩ := exists_quoted found
          refine ⟨'\\' :: d :: inside, rest, by rw [same]; rfl, .escape quoted, ?_⟩
          rw [← later]
          congr 1
          simp only [List.length_cons]
          omega
      · simp only [Region.next, closes, escapes, if_false] at found
        obtain ⟨inside, rest, same, quoted, later⟩ := exists_quoted found
        refine ⟨c :: inside, rest, by rw [same]; rfl, .plain closes escapes quoted, ?_⟩
        rw [← later]
        congr 1
        simp only [List.length_cons]
        omega

theorem exists_lineComment (found : unitEnd b .lineComment depth i s = some stop) :
    ∃ inside rest, s = inside ++ '\n' :: rest ∧ '\n' ∉ inside ∧
      unitEnd b .code depth (i + inside.length + 1) rest = some stop := by
  induction s generalizing i with
  | nil => simp [unitEnd] at found
  | cons c rest ih =>
    rw [unitEnd_hidden Region.noConfusion] at found
    by_cases ends : c = '\n'
    · simp only [Region.next, ends, if_true] at found
      exact ⟨[], rest, by rw [ends]; rfl, List.not_mem_nil, found⟩
    · simp only [Region.next, ends, if_false] at found
      obtain ⟨inside, rest, same, oneLine, later⟩ := ih found
      refine ⟨c :: inside, rest, by rw [same]; rfl, ?_, ?_⟩
      · exact fun member => (List.mem_cons.1 member).elim (fun first => ends first.symm) oneLine
      · rw [← later]
        congr 1
        simp only [List.length_cons]
        omega

theorem exists_blockComment (found : unitEnd b .blockComment depth i s = some stop) :
    ∃ inside rest, s = inside ++ '*' :: '/' :: rest ∧ ¬ ['*', '/'] <:+: inside ∧
      unitEnd b .code depth (i + inside.length + 2) rest = some stop := by
  induction s generalizing i with
  | nil => simp [unitEnd] at found
  | cons c rest ih =>
    rw [unitEnd_hidden Region.noConfusion] at found
    by_cases ends : c = '*' ∧ rest.head? = some '/'
    · obtain ⟨star, slash⟩ := ends
      obtain ⟨behind, rfl⟩ := List.head?_eq_some_iff.1 slash
      simp only [Region.next, star, slash, and_self, if_true] at found
      rw [unitEnd_hidden Region.noConfusion] at found
      simp only [Region.next] at found
      exact ⟨[], behind, by rw [star]; rfl, by simp, found⟩
    · simp only [Region.next, ends, if_false] at found
      obtain ⟨inside, rest, same, open_, later⟩ := ih found
      refine ⟨c :: inside, rest, by rw [same]; rfl, ?_, ?_⟩
      · intro closed
        rcases List.infix_cons_iff.1 closed with start | inner
        · obtain ⟨star, second⟩ := List.cons_prefix_cons.1 start
          apply ends
          refine ⟨star.symm, ?_⟩
          obtain ⟨behind, rfl⟩ := second
          rw [same]
          rfl
        · exact open_ inner
      · rw [← later]
        congr 1
        simp only [List.length_cons]
        omega

theorem exists_hidden (free : c ≠ b.opening ∧ c ≠ b.closing)
    (hides : Region.code.next b.quotes b.comments c rest.head? ≠ .code)
    (found : unitEnd b .code depth i (c :: rest) = some stop) :
    ∃ lead behind, c :: rest = lead ++ behind ∧ lead ≠ [] ∧
      unitEnd b .code depth (i + lead.length) behind = some stop ∧
      ∀ inside, Balanced b inside → Balanced b (lead ++ inside) := by
  rw [unitEnd_free free] at found
  by_cases quotes : c ∈ b.quotes
  · rw [next_quote quotes] at found
    obtain ⟨inside, behind, rfl, quoted, later⟩ := exists_quoted found
    refine ⟨c :: (inside ++ [c]), behind, by simp, List.cons_ne_nil _ _, ?_, ?_⟩
    · rw [← later, List.length_cons, List.length_append, List.length_singleton]
      congr 1
      omega
    · intro tail balanced
      simpa using Balanced.literal quotes quoted balanced
  have comment : b.comments = true ∧ c = '/' ∧ (rest.head? = some '/' ∨ rest.head? = some '*') := by
    by_contra none
    apply hides
    apply (next_eq_code_iff rest.head?).2
    refine ⟨quotes, ?_⟩
    intro known slash
    exact not_or.1 fun opens => none ⟨known, slash, opens⟩
  obtain ⟨known, rfl, second | second⟩ := comment
  · obtain ⟨more, rfl⟩ := List.head?_eq_some_iff.1 second
    have region : Region.code.next b.quotes b.comments '/' (some '/') = .lineComment := by
      simp [Region.next, known, quotes]
    rw [List.head?_cons, region, unitEnd_hidden Region.noConfusion] at found
    obtain ⟨inside, behind, rfl, oneLine, later⟩ := exists_lineComment found
    refine ⟨'/' :: '/' :: (inside ++ ['\n']), behind, by simp, List.cons_ne_nil _ _, ?_, ?_⟩
    · rw [← later, List.length_cons, List.length_cons, List.length_append, List.length_singleton]
      congr 1
      omega
    · intro tail balanced
      simpa using Balanced.lineComment known oneLine balanced
  · obtain ⟨more, rfl⟩ := List.head?_eq_some_iff.1 second
    have region : Region.code.next b.quotes b.comments '/' (some '*') = .commentOpen := by
      simp [Region.next, known, quotes]
    rw [List.head?_cons, region, unitEnd_hidden Region.noConfusion] at found
    obtain ⟨inside, behind, rfl, open_, later⟩ := exists_blockComment found
    refine ⟨'/' :: '*' :: (inside ++ ['*', '/']), behind, by simp, List.cons_ne_nil _ _, ?_, ?_⟩
    · rw [← later]
      congr 1
      simp only [List.length_cons, List.length_append, List.length_nil]
      omega
    · intro tail balanced
      simpa using Balanced.blockComment known open_ balanced

def StopsBehind (b : Brackets) (depth i stop : Nat) (s : List Char) : Prop :=
  ∃ inside rest, s = inside ++ b.closing :: rest ∧ Balanced b inside ∧
    unitEnd b .code (depth + 1) (i + inside.length) (b.closing :: rest) = some stop

theorem StopsBehind.prepend {lead more : List Char} (later : StopsBehind b depth (i + lead.length) stop more)
    (wrap : ∀ inside, Balanced b inside → Balanced b (lead ++ inside)) :
    StopsBehind b depth i stop (lead ++ more) := by
  obtain ⟨inside, rest, split, within, final⟩ := later
  refine ⟨lead ++ inside, rest, ?_, wrap inside within, ?_⟩
  · rw [split, List.append_assoc]
  · rw [← final, List.length_append, Nat.add_assoc]

theorem StopsBehind.plain (free : c ≠ b.opening ∧ c ≠ b.closing)
    (stays : Region.code.next b.quotes b.comments c rest.head? = .code)
    (later : StopsBehind b depth (i + 1) stop rest) : StopsBehind b depth i stop (c :: rest) := by
  obtain ⟨inside, behind, rfl, within, final⟩ := later
  obtain ⟨quotes, alone⟩ := (next_eq_code_iff _).1 stays
  refine ⟨c :: inside, behind, rfl, .plain ⟨free.1, free.2, quotes⟩ ?_ within, ?_⟩
  · intro known slash
    obtain ⟨noSecond, noStar⟩ := alone known slash
    cases inside with
    | nil => simp
    | cons d more => exact ⟨noSecond, noStar⟩
  · rw [← final, List.length_cons, Nat.add_assoc, Nat.add_comm 1]

theorem stopsBehind_of_unitEnd {n : Nat} (bound : s.length ≤ n)
    (found : unitEnd b .code (depth + 1) i s = some stop) : StopsBehind b depth i stop s := by
  -- on the length of the text: behind a literal, a comment or a nested unit the scan goes on with a shorter one
  induction n generalizing s depth i with
  | zero =>
    obtain rfl := List.eq_nil_of_length_eq_zero (Nat.le_zero.1 bound)
    simp [unitEnd] at found
  | succ n ih =>
    cases s with
    | nil => simp [unitEnd] at found
    | cons c rest =>
      by_cases opens : c = b.opening
      · subst opens
        rw [unitEnd_opening] at found
        obtain ⟨inside, behind, rfl, within, closed⟩ := ih (Nat.le_of_succ_le_succ bound) found
        rw [unitEnd_closing] at closed
        simp only [List.length_cons, List.length_append] at bound
        have later := ih (by omega) closed
        rw [show b.opening :: (inside ++ b.closing :: behind) = (b.opening :: (inside ++ [b.closing])) ++ behind by
          simp]
        apply StopsBehind.prepend
        · simpa [Nat.add_assoc, Nat.add_comm 1] using later
        · intro tail balanced
          simpa using Balanced.nested within balanced
      by_cases closes : c = b.closing
      · exact ⟨[], rest, by rw [closes]; rfl, .nil, closes ▸ found⟩
      by_cases stays : Region.code.next b.quotes b.comments c rest.head? = .code
      · rw [unitEnd_free ⟨opens, closes⟩, stays] at found
        exact (ih (Nat.le_of_succ_le_succ bound) found).plain ⟨opens, closes⟩ stays
      · obtain ⟨lead, behind, same, nonempty, later, wrap⟩ := exists_hidden ⟨opens, closes⟩ stays found
        have some := List.length_pos_iff.2 nonempty
        rw [same, List.length_append] at bound
        rw [same]
        exact (ih (by omega) later).prepend wrap

theorem unitEnd_eq_some_iff :
    unitEnd b .code 0 i (b.opening :: s) = some stop ↔
      ∃ inside rest, s = inside ++ b.closing :: rest ∧ Balanced b inside ∧ stop = i + inside.length + 2 := by
  rw [unitEnd_opening]
  constructor
  · intro found
    obtain ⟨inside, rest, same, within, final⟩ := stopsBehind_of_unitEnd (Nat.le_refl _) found
    rw [unitEnd_last] at final
    refine ⟨inside, rest, same, within, ?_⟩
    have end_ := Option.some.inj final
    omega
  · rintro ⟨inside, rest, rfl, within, rfl⟩
    rw [unitEnd_balanced within, unitEnd_last]
    congr 1
    omega

theorem balanced_iff (inside : List Char) :
    Balanced b inside ↔
      unitEnd b .code 0 0 (b.opening :: (inside ++ [b.closing])) = some (inside.length + 2) := by
  rw [unitEnd_eq_some_iff]
  constructor
  · intro balanced
    exact ⟨inside, [], rfl, balanced, by omega⟩
  · rintro ⟨inside', rest, same, balanced, length⟩
    have whole : inside.length = inside'.length := by omega
    exact (List.append_inj_left same whole) ▸ balanced

instance : DecidablePred (Balanced b) := fun inside => decidable_of_iff _ (balanced_iff inside).symm

example : Balanced braces "if (s == '\x7d') \x7b /* \x7d */ \x7d // \x7b\n".toList := by decide

/-! The scans of a declaration: through its parameters, to its body and through that. -/

open CodeDeck.Text

theorem closingParen?_unit {quotes : List Char} (admitted : parens.Admits quotes)
    (balanced : Balanced (parens.withQuotes quotes admitted) inside) (before rest : List Char) :
    closingParen? (before ++ '(' :: (inside ++ ')' :: rest)) before.length quotes =
      some (before.length + inside.length + 2) := by
  rw [closingParen?, List.drop_left]
  show parenEnd quotes .code 0 before.length ('(' :: (inside ++ ')' :: rest)) = _
  rw [parenEnd_eq admitted]
  exact unitEnd_eq_some_iff.2 ⟨inside, rest, rfl, balanced, rfl⟩

theorem closingParen?_balanced (balanced : Balanced parens inside) (before rest : List Char) :
    closingParen? (before ++ '(' :: (inside ++ ')' :: rest)) before.length defaultQuotes =
      some (before.length + inside.length + 2) :=
  closingParen?_unit (by decide) balanced before rest

theorem annotatedBodyBrace?_space {previous : List Char} (stands : previous ∉ typeLeaders)
    (before rest : List Char) :
    annotatedBodyBrace? (before ++ ' ' :: '\x7b' :: rest) before.length previous defaultQuotes =
      some (before.length + 1) := by
  have blank : isBlank ' ' = true := by decide
  rw [annotatedBodyBrace?, List.drop_left]
  simp [annotatedBrace, defaultQuotes, blank, stands]

theorem braceBlock?_unit {quotes : List Char} (admitted : braces.Admits quotes)
    (balanced : Balanced (braces.withQuotes quotes admitted) inside) (before lead rest : List Char) :
    braceBlock? (before ++ (lead ++ '\x7b' :: (inside ++ '\x7d' :: rest))) before.length
        (before.length + lead.length) quotes =
      some (lead ++ '\x7b' :: (inside ++ ['\x7d'])) := by
  have ends : unitEnd (braces.withQuotes quotes admitted) .code 0 (before.length + lead.length)
      ('\x7b' :: (inside ++ '\x7d' :: rest)) = some (before.length + lead.length + inside.length + 2) :=
    unitEnd_eq_some_iff.2 ⟨inside, rest, rfl, balanced, rfl⟩
  have scanned : (before ++ (lead ++ '\x7b' :: (inside ++ '\x7d' :: rest))).drop
      (before.length + lead.length) = '\x7b' :: (inside ++ '\x7d' :: rest) := by
    rw [← List.append_assoc]
    exact List.drop_left' List.length_append
  rw [braceBlock?, scanned, braceEnd_eq admitted, ends, Option.map_some, slice, List.drop_left]
  congr 1
  rw [show lead ++ '\x7b' :: (inside ++ '\x7d' :: rest) =
    (lead ++ '\x7b' :: (inside ++ ['\x7d'])) ++ rest by simp]
  apply List.take_left'
  simp only [List.length_append, List.length_cons, List.length_nil]
  omega

theorem braceBlock?_balanced (balanced : Balanced braces inside) (before lead rest : List Char) :
    braceBlock? (before ++ (lead ++ '\x7b' :: (inside ++ '\x7d' :: rest))) before.length
        (before.length + lead.length) defaultQuotes =
      some (lead ++ '\x7b' :: (inside ++ ['\x7d'])) :=
  braceBlock?_unit (by decide) balanced before lead rest

end CodeDeck.Scan
