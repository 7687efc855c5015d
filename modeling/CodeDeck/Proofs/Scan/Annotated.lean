import CodeDeck.Proofs.Scan.Balanced
import CodeDeck.Proofs.Text.Lines

/-! The brace that opens a body behind a type. A scan that keeps the number of open brackets and the last token steps
over every type, with all that is nested in it. -/

namespace CodeDeck.Scan

open CodeDeck.Text

/-! One character of a scan. -/

section Character

variable {quotes previous rest : List Char} {region : Region} {c : Char} {depth : Int} {i : Nat}

theorem annotatedBrace_hidden (hidden : region ≠ .code) :
    annotatedBrace quotes region previous depth i (c :: rest) =
      annotatedBrace quotes (region.next quotes false c rest.head?) previous depth (i + 1) rest := by
  rw [annotatedBrace, if_pos hidden]

theorem annotatedBrace_quote (quoted : c ∈ quotes) :
    annotatedBrace quotes .code previous depth i (c :: rest) =
      annotatedBrace quotes (.literal c) [c] depth (i + 1) rest := by
  simp [annotatedBrace, quoted]

section Unquoted

variable (unquoted : c ∉ quotes)
include unquoted

theorem annotatedBrace_body (body : c = '\x7b' ∧ depth = 0 ∧ previous ∉ typeLeaders) :
    annotatedBrace quotes .code previous depth i (c :: rest) = some i := by
  obtain ⟨rfl, rfl, leads⟩ := body
  simp [annotatedBrace, unquoted, leads]

theorem annotatedBrace_arrow (arrow : c = '>' ∧ previous = ['=']) :
    annotatedBrace quotes .code previous depth i (c :: rest) =
      annotatedBrace quotes .code ['=', '>'] depth (i + 1) rest := by
  obtain ⟨rfl, rfl⟩ := arrow
  simp [annotatedBrace, unquoted]

theorem annotatedBrace_opening (opens : c ∈ ['(', '<', '[', '\x7b'])
    (inner : ¬ (c = '\x7b' ∧ depth = 0 ∧ previous ∉ typeLeaders)) :
    annotatedBrace quotes .code previous depth i (c :: rest) =
      annotatedBrace quotes .code [c] (depth + 1) (i + 1) rest := by
  have noArrow : ¬ (c = '>' ∧ previous = ['=']) := by
    rintro ⟨rfl, _⟩
    contradiction
  simp only [annotatedBrace, ne_eq, not_true_eq_false, if_false, List.contains_iff_mem, unquoted, inner, noArrow,
    opens, if_true]

theorem annotatedBrace_closing (closes : c ∈ [')', '>', ']', '\x7d']) (noArrow : ¬ (c = '>' ∧ previous = ['='])) :
    annotatedBrace quotes .code previous depth i (c :: rest) =
      annotatedBrace quotes .code [c] (depth - 1) (i + 1) rest := by
  have noBody : ¬ (c = '\x7b' ∧ depth = 0 ∧ previous ∉ typeLeaders) := by
    rintro ⟨rfl, _⟩
    contradiction
  have noOpening : c ∉ ['(', '<', '[', '\x7b'] := by
    intro opens
    simp only [List.mem_cons, List.not_mem_nil, or_false] at closes opens
    rcases closes with rfl | rfl | rfl | rfl <;> simp at opens
  simp only [annotatedBrace, ne_eq, not_true_eq_false, if_false, List.contains_iff_mem, unquoted, noBody, noArrow,
    noOpening, closes, if_true]

theorem annotatedBrace_plain (noBracket : c ∉ ['(', '<', '[', '\x7b', ')', '>', ']', '\x7d']) :
    annotatedBrace quotes .code previous depth i (c :: rest) =
      if c = ';' ∧ depth ≤ 0 then none
      else annotatedBrace quotes .code (if isBlank c then previous else [c]) depth (i + 1) rest := by
  have noOpening : c ∉ ['(', '<', '[', '\x7b'] := fun opens => noBracket (by simp at opens ⊢; tauto)
  have noClosing : c ∉ [')', '>', ']', '\x7d'] := fun closes => noBracket (by simp at closes ⊢; tauto)
  have noBody : ¬ (c = '\x7b' ∧ depth = 0 ∧ previous ∉ typeLeaders) := fun body => noOpening (by simp [body])
  have noArrow : ¬ (c = '>' ∧ previous = ['=']) := fun arrow => noClosing (by simp [arrow])
  simp only [annotatedBrace, ne_eq, not_true_eq_false, if_false, List.contains_iff_mem, unquoted, noBody, noArrow,
    noOpening, noClosing]

end Unquoted

theorem annotatedBrace_literal {inside : List Char} (escapes : '\\' ∉ quotes) (quoted : c ∈ quotes)
    (literal : Quoted c inside) :
    annotatedBrace quotes .code previous depth i (c :: (inside ++ c :: rest)) =
      annotatedBrace quotes .code [c] depth (i + inside.length + 2) rest := by
  have passed (j : Nat) : annotatedBrace quotes (.literal c) [c] depth j (inside ++ c :: rest) =
      annotatedBrace quotes .code [c] depth (j + inside.length + 1) rest := by
    induction literal generalizing j with
    | nil => simp [annotatedBrace_hidden, Region.next]
    | plain open_ single _ ih =>
      rw [List.cons_append, annotatedBrace_hidden Region.noConfusion]
      simp only [Region.next, open_, single, if_false]
      rw [ih, List.length_cons]
      congr 1
      omega
    | escape _ ih =>
      have other : '\\' ≠ c := fun same => escapes (same ▸ quoted)
      rw [List.cons_append, List.cons_append, annotatedBrace_hidden Region.noConfusion]
      simp only [Region.next, other, if_false, if_true]
      rw [annotatedBrace_hidden Region.noConfusion]
      simp only [Region.next]
      rw [ih, List.length_cons, List.length_cons]
      congr 1
      omega
  rw [annotatedBrace_quote quoted, passed]
  congr 1
  omega

end Character

/-! Types. -/

inductive Bracket where
  | round | angle | square | curly
  deriving DecidableEq, Repr

namespace Bracket

def opening : Bracket → Char
  | round => '('
  | angle => '<'
  | square => '['
  | curly => '\x7b'

def closing : Bracket → Char
  | round => ')'
  | angle => '>'
  | square => ']'
  | curly => '\x7d'

end Bracket

/-- A character of a type that is no token of its own: no quote, no bracket and no equals sign. -/
def isPlain (c : Char) : Bool :=
  decide (c ∉ '=' :: '(' :: '<' :: '[' :: '\x7b' :: ')' :: '>' :: ']' :: '\x7d' :: defaultQuotes)

/-- A text that does not start with the tip of an arrow. Behind an equals sign such a text makes no arrow of it. -/
def Tipless (s : List Char) : Prop := ∃ c, (trimStart s).head? = some c ∧ c ≠ '>'

/-- The text within a group: plain characters, defaults, literals, arrows and groups, nested to any depth. -/
inductive Grouped : List Char → Prop
  | nil : Grouped []
  | plain {c : Char} {rest : List Char} (free : isPlain c = true) (behind : Grouped rest) : Grouped (c :: rest)
  | default {rest : List Char} (apart : Tipless rest) (behind : Grouped rest) : Grouped ('=' :: rest)
  | literal {quote : Char} {inside rest : List Char} (quotes : quote ∈ defaultQuotes) (quoted : Quoted quote inside)
      (behind : Grouped rest) : Grouped (quote :: (inside ++ quote :: rest))
  | arrow {rest : List Char} (behind : Grouped rest) : Grouped ('=' :: '>' :: rest)
  | group {inside rest : List Char} (bracket : Bracket) (within : Grouped inside) (behind : Grouped rest) :
      Grouped (bracket.opening :: (inside ++ bracket.closing :: rest))

inductive TypeToken where
  | plain (c : Char)
  | literal (quote : Char) (inside : List Char)
  | arrow
  | group (bracket : Bracket) (inside : List Char)
  deriving DecidableEq, Repr

namespace TypeToken

def text : TypeToken → List Char
  | plain c => [c]
  | literal quote inside => quote :: (inside ++ [quote])
  | arrow => ['=', '>']
  | group bracket inside => bracket.opening :: (inside ++ [bracket.closing])

def WellFormed : TypeToken → Prop
  | plain c => isPlain c = true ∧ c ≠ ';'
  | literal quote inside => quote ∈ defaultQuotes ∧ Quoted quote inside
  | arrow => True
  | group _ inside => Grouped inside

def isGap : TypeToken → Bool
  | plain c => isBlank c
  | literal .. | arrow | group .. => false

/-- May an object type stand behind the token? -/
def leads : TypeToken → Bool
  | plain c => decide (c ∈ [':', '|', '&', ',', '?'])
  | arrow => true
  | literal .. | group .. => false

def isObject : TypeToken → Bool
  | group .curly _ => true
  | _ => false

theorem isObject_iff {t : TypeToken} : t.isObject = true ↔ ∃ inside, t = group .curly inside := by
  constructor
  · intro object
    cases t with
    | group bracket inside =>
      cases bracket with
      | curly => exact ⟨inside, rfl⟩
      | _ => contradiction
    | _ => contradiction
  · rintro ⟨inside, rfl⟩
    rfl

end TypeToken

def typeText (ts : List TypeToken) : List Char := ts.flatMap TypeToken.text

def lastToken? (ts : List TypeToken) : Option TypeToken := (ts.filter fun t => !t.isGap).getLast?

def Led (ts : List TypeToken) : Prop :=
  ∀ before inside after, ts = before ++ .group .curly inside :: after →
    ∃ last, lastToken? before = some last ∧ last.leads = true

theorem led_iff (ts : List TypeToken) :
    Led ts ↔ ∀ i : Fin ts.length, ts[i].isObject = true → (lastToken? (ts.take i)).any TypeToken.leads = true := by
  simp only [Option.any_eq_true]
  constructor
  · intro led i object
    obtain ⟨inside, same⟩ := TypeToken.isObject_iff.1 object
    apply led (ts.take i) inside (ts.drop (i + 1))
    rw [← same]
    exact (List.take_append_drop ..).symm.trans (congrArg (ts.take i ++ ·) (List.drop_eq_getElem_cons i.isLt))
  · rintro led before inside after rfl
    have object := led ⟨before.length, by simp⟩
    simpa [TypeToken.isObject] using object

instance : DecidablePred Led := fun ts => decidable_of_iff _ (led_iff ts).symm

theorem Grouped.run {lead rest : List Char} (free : ∀ c ∈ lead, isPlain c = true) (behind : Grouped rest) :
    Grouped (lead ++ rest) := by
  induction lead with
  | nil => exact behind
  | cons c more ih =>
    obtain ⟨first, others⟩ := List.forall_mem_cons.1 free
    exact .plain first (ih others)

theorem TypeToken.wellFormed_plain {s : List Char} (free : ∀ c ∈ s, isPlain c = true ∧ c ≠ ';') :
    ∀ t ∈ s.map TypeToken.plain, t.WellFormed := by
  intro t member
  obtain ⟨c, inside, rfl⟩ := List.mem_map.1 member
  exact free c inside

/-! The scan through a type. -/

theorem isPlain_iff {c : Char} :
    isPlain c = true ↔ c ≠ '=' ∧ c ∉ ['(', '<', '[', '\x7b', ')', '>', ']', '\x7d'] ∧ c ∉ defaultQuotes := by
  simp [isPlain, not_or, and_assoc]

namespace Bracket

variable (bracket : Bracket)

theorem opening_mem : bracket.opening ∈ ['(', '<', '[', '\x7b'] := by cases bracket <;> decide

theorem closing_mem : bracket.closing ∈ [')', '>', ']', '\x7d'] := by cases bracket <;> decide

theorem unquoted : bracket.opening ∉ defaultQuotes ∧ bracket.closing ∉ defaultQuotes := by cases bracket <;> decide

theorem opening_ne : [bracket.opening] ≠ ['='] := by cases bracket <;> decide

theorem closing_ne : [bracket.closing] ≠ ['='] := by cases bracket <;> decide

theorem opening_eq_iff : bracket.opening = '\x7b' ↔ bracket = curly := by cases bracket <;> decide

end Bracket

theorem annotatedBrace_typeArrow (previous : List Char) (depth : Int) (i : Nat) (rest : List Char) :
    annotatedBrace defaultQuotes .code previous depth i ('=' :: '>' :: rest) =
      annotatedBrace defaultQuotes .code ['=', '>'] depth (i + 2) rest := by
  have inked : isBlank '=' = false := by decide
  rw [annotatedBrace_plain (by decide) (by decide), if_neg (by simp), inked, if_neg Bool.false_ne_true,
    annotatedBrace_arrow (by decide) ⟨rfl, rfl⟩]

theorem Tipless.behind {c : Char} {rest : List Char} (tipless : Tipless (c :: rest)) (blank : isBlank c = true) :
    Tipless rest := by
  have same : trimStart (c :: rest) = trimStart rest := List.dropWhile_cons_of_pos blank
  rwa [Tipless, same] at tipless

/-- Within a group everything is passed over. The last token is not an equals sign alone, so that the bracket that
closes an angle is none of an arrow. -/
theorem annotatedBrace_grouped {s : List Char} (grouped : Grouped s) {previous : List Char}
    (first : previous = ['='] → Tipless s) {depth : Int} (inside : 0 < depth) (i : Nat) (rest : List Char) :
    ∃ last, last ≠ ['='] ∧ annotatedBrace defaultQuotes .code previous depth i (s ++ rest) =
      annotatedBrace defaultQuotes .code last depth (i + s.length) rest := by
  -- The depth stays positive inside of a group, so that no brace there is taken for the body.
  induction grouped generalizing previous depth i rest with
  | nil =>
    refine ⟨previous, ?_, rfl⟩
    intro equals
    obtain ⟨c, none, _⟩ := first equals
    contradiction
  | @plain c more free _ ih =>
    obtain ⟨noEquals, noBracket, unquoted⟩ := isPlain_iff.1 free
    have next : (if isBlank c = true then previous else [c]) = ['='] → Tipless more := by
      split
      · next blank => exact fun equals => (first equals).behind blank
      · exact fun equals => absurd (List.singleton_inj.1 equals) noEquals
    obtain ⟨last, other, passed⟩ := ih next inside (i + 1) rest
    refine ⟨last, other, ?_⟩
    rw [List.cons_append, annotatedBrace_plain unquoted noBracket, if_neg (fun ends => by omega), passed,
      List.length_cons]
    congr 1
    omega
  | @default more apart _ ih =>
    have inked : isBlank '=' = false := by decide
    obtain ⟨last, other, passed⟩ := ih (fun _ => apart) inside (i + 1) rest
    refine ⟨last, other, ?_⟩
    rw [List.cons_append, annotatedBrace_plain (by decide) (by decide), if_neg (fun ends => by omega), inked,
      if_neg Bool.false_ne_true, passed, List.length_cons]
    congr 1
    omega
  | @literal quote text more quotes quoted _ ih =>
    have next : [quote] ≠ ['='] := by
      intro same
      rw [List.singleton_inj.1 same] at quotes
      exact absurd quotes (by decide)
    obtain ⟨last, other, passed⟩ := ih (fun same => absurd same next) inside (i + text.length + 2) rest
    refine ⟨last, other, ?_⟩
    rw [List.cons_append, List.append_assoc, List.cons_append, annotatedBrace_literal (by decide) quotes quoted, passed]
    congr 1
    simp only [List.length_cons, List.length_append]
    omega
  | arrow _ ih =>
    obtain ⟨last, other, passed⟩ := ih (fun same : ['=', '>'] = ['='] => absurd same (by decide)) inside (i + 2) rest
    refine ⟨last, other, ?_⟩
    rw [List.cons_append, List.cons_append, annotatedBrace_typeArrow, passed, List.length_cons, List.length_cons]
    congr 1
    omega
  | @group text more bracket _ _ ih ih' =>
    obtain ⟨inner, single, within⟩ := ih (fun same => absurd same bracket.opening_ne) (Int.add_pos inside Int.one_pos)
      (i + 1) (bracket.closing :: (more ++ rest))
    obtain ⟨last, other, passed⟩ := ih' (fun same => absurd same bracket.closing_ne) inside (i + text.length + 2) rest
    refine ⟨last, other, ?_⟩
    rw [List.cons_append, List.append_assoc, List.cons_append,
      annotatedBrace_opening bracket.unquoted.1 bracket.opening_mem (fun body => by omega), within,
      annotatedBrace_closing bracket.unquoted.2 bracket.closing_mem (fun arrow => single arrow.2),
      Int.add_sub_cancel]
    have behind : i + 1 + text.length + 1 = i + text.length + 2 := by omega
    rw [behind, passed]
    congr 1
    simp only [List.length_cons, List.length_append]
    omega

/-! Outside groups the last token decides what a brace opens. -/

def TypeToken.sign (previous : List Char) : TypeToken → List Char
  | plain c => if isBlank c then previous else [c]
  | literal quote _ => [quote]
  | arrow => ['=', '>']
  | group bracket _ => [bracket.closing]

def signBehind (previous : List Char) (ts : List TypeToken) : List Char := ts.foldl TypeToken.sign previous

theorem annotatedBrace_token {t : TypeToken} (formed : t.WellFormed) {previous : List Char}
    (led : ∀ inside, t = .group .curly inside → previous ∈ typeLeaders) (i : Nat) (rest : List Char) :
    annotatedBrace defaultQuotes .code previous 0 i (t.text ++ rest) =
      annotatedBrace defaultQuotes .code (t.sign previous) 0 (i + t.text.length) rest := by
  cases t with
  | plain c =>
    obtain ⟨free, noEnd⟩ := formed
    obtain ⟨_, noBracket, unquoted⟩ := isPlain_iff.1 free
    rw [TypeToken.text, List.singleton_append, annotatedBrace_plain unquoted noBracket,
      if_neg (fun ends => noEnd ends.1)]
    rfl
  | literal quote inside =>
    obtain ⟨quotes, quoted⟩ := formed
    rw [TypeToken.text, List.cons_append, List.append_assoc, List.singleton_append,
      annotatedBrace_literal (by decide) quotes quoted]
    simp only [TypeToken.sign, List.length_cons, List.length_append, List.length_nil]
    congr 1
  | arrow => exact annotatedBrace_typeArrow ..
  | group bracket inside =>
    obtain ⟨inner, single, within⟩ := annotatedBrace_grouped formed
      (fun same => absurd same bracket.opening_ne) (Int.zero_add 1 ▸ Int.one_pos : (0 : Int) < 0 + 1) (i + 1) (bracket.closing :: rest)
    have noBody : ¬ (bracket.opening = '\x7b' ∧ (0 : Int) = 0 ∧ previous ∉ typeLeaders) := by
      rintro ⟨brace, _, leads⟩
      exact leads (led inside (by rw [bracket.opening_eq_iff.1 brace]))
    rw [TypeToken.text, List.cons_append, List.append_assoc, List.singleton_append,
      annotatedBrace_opening bracket.unquoted.1 bracket.opening_mem noBody, within,
      annotatedBrace_closing bracket.unquoted.2 bracket.closing_mem (fun arrow => single arrow.2),
      Int.add_sub_cancel]
    simp only [TypeToken.sign, List.length_cons, List.length_append, List.length_nil]
    congr 1
    omega

theorem typeText_cons (t : TypeToken) (ts : List TypeToken) : typeText (t :: ts) = t.text ++ typeText ts := rfl

/-- The scan stops at the first object type behind which no leading token stands, and passes over a type without one. -/
theorem annotatedBrace_typeText {ts : List TypeToken} (formed : ∀ t ∈ ts, t.WellFormed) (previous : List Char) (i : Nat)
    (rest : List Char) :
    (∃ before inside after, ts = before ++ .group .curly inside :: after ∧
      signBehind previous before ∉ typeLeaders ∧
      annotatedBrace defaultQuotes .code previous 0 i (typeText ts ++ rest) = some (i + (typeText before).length)) ∨
    annotatedBrace defaultQuotes .code previous 0 i (typeText ts ++ rest) =
      annotatedBrace defaultQuotes .code (signBehind previous ts) 0 (i + (typeText ts).length) rest := by
  induction ts generalizing previous i with
  | nil => exact .inr rfl
  | cons t more ih =>
    obtain ⟨first, others⟩ := List.forall_mem_cons.1 formed
    rw [typeText_cons, List.append_assoc]
    by_cases led : ∀ inside, t = .group .curly inside → previous ∈ typeLeaders
    · rw [annotatedBrace_token first led]
      rcases ih others (t.sign previous) (i + t.text.length) with
        ⟨before, inside, after, rfl, leads, stops⟩ | passes
      · refine .inl ⟨t :: before, inside, after, rfl, leads, ?_⟩
        rw [stops, typeText_cons, List.length_append, Nat.add_assoc]
      · rw [passes, List.length_append, Nat.add_assoc]
        exact .inr rfl
    · push Not at led
      obtain ⟨inside, rfl, leads⟩ := led
      refine .inl ⟨[], inside, more, rfl, leads, ?_⟩
      exact annotatedBrace_body (c := '\x7b') (by decide) ⟨rfl, rfl, leads⟩

/-! The last token of a scan is that of the type. -/

theorem TypeToken.sign_mem_typeLeaders_iff {t : TypeToken} (formed : t.WellFormed) (token : t.isGap = false)
    (previous : List Char) : t.sign previous ∈ typeLeaders ↔ t.leads = true := by
  cases t with
  | plain c =>
    have inked : isBlank c = false := token
    obtain ⟨_, noBracket, _⟩ := isPlain_iff.1 formed.1
    simp only [List.mem_cons, not_or] at noBracket
    simp [sign, leads, inked, typeLeaders, noBracket]
  | literal quote inside =>
    have plain : ∀ c ∈ defaultQuotes, [c] ∉ typeLeaders := by decide
    exact iff_of_false (plain quote formed.1) Bool.false_ne_true
  | arrow => exact iff_of_true (show ['=', '>'] ∈ typeLeaders by decide) rfl
  | group bracket inside =>
    have plain : [bracket.closing] ∉ typeLeaders := by cases bracket <;> decide
    exact iff_of_false plain Bool.false_ne_true

theorem lastToken?_concat (ts : List TypeToken) (t : TypeToken) :
    lastToken? (ts ++ [t]) = if t.isGap then lastToken? ts else some t := by
  rw [lastToken?, List.filter_append]
  cases gap : t.isGap with
  | true => simp [gap, lastToken?]
  | false => simp [gap]

theorem signBehind_mem_typeLeaders_iff {ts : List TypeToken} (formed : ∀ t ∈ ts, t.WellFormed) {last : TypeToken}
    (found : lastToken? ts = some last) (previous : List Char) :
    signBehind previous ts ∈ typeLeaders ↔ last.leads = true := by
  induction ts using List.reverseRecOn with
  | nil => contradiction
  | append_singleton ts t ih =>
    rw [signBehind, List.foldl_append, List.foldl_cons, List.foldl_nil]
    rw [lastToken?_concat] at found
    cases gap : t.isGap with
    | true =>
      rw [gap, if_pos rfl] at found
      have same : t.sign (signBehind previous ts) = signBehind previous ts := by
        cases t with
        | plain c => exact if_pos gap
        | _ => contradiction
      have before := ih (fun u member => formed u (List.mem_append_left _ member)) found
      rw [signBehind] at same before
      rw [same, before]
    | false =>
      rw [gap, if_neg Bool.false_ne_true] at found
      obtain rfl := Option.some.inj found
      exact TypeToken.sign_mem_typeLeaders_iff (formed t List.mem_concat_self) gap _

theorem annotatedBrace_led {ts : List TypeToken} (formed : ∀ t ∈ ts, t.WellFormed) (led : Led ts)
    (previous : List Char) (i : Nat) (rest : List Char) :
    annotatedBrace defaultQuotes .code previous 0 i (typeText ts ++ rest) =
      annotatedBrace defaultQuotes .code (signBehind previous ts) 0 (i + (typeText ts).length) rest := by
  rcases annotatedBrace_typeText formed previous i rest with
    ⟨before, inside, after, same, leads, _⟩ | passes
  · obtain ⟨last, found, leading⟩ := led before inside after same
    have front : ∀ t ∈ before, t.WellFormed := fun t member => formed t (same ▸ List.mem_append_left _ member)
    exact absurd ((signBehind_mem_typeLeaders_iff front found previous).2 leading) leads
  · exact passes

theorem lastToken?_cons {ts : List TypeToken} {last : TypeToken} (found : lastToken? ts = some last) (t : TypeToken) :
    lastToken? (t :: ts) = some last := by
  rw [lastToken?, List.filter_cons]
  split
  · rw [List.getLast?_cons, ← lastToken?, found, Option.getD_some]
  · exact found

/-- A type behind a colon: it is no blank text, each object type outside other groups stands behind a token that leads
to one, and the last token leads to none. -/
structure ReturnType (ts : List TypeToken) : Prop where
  formed : ∀ t ∈ ts, t.WellFormed
  led : Led (.plain ':' :: ts)
  ended : ∃ last, lastToken? ts = some last ∧ last.leads = false

/-- Behind a colon and a type, the scan stops at the brace of the body, whatever stands around them. -/
theorem annotatedBodyBrace?_returnType {ts : List TypeToken} (type : ReturnType ts) (before after : List Char) :
    annotatedBodyBrace? (before ++ ':' :: (typeText ts ++ ' ' :: '\x7b' :: after)) before.length [')'] defaultQuotes =
      some (before.length + (typeText ts).length + 2) := by
  obtain ⟨last, found, ends⟩ := type.ended
  have formed : ∀ t ∈ TypeToken.plain ':' :: ts, t.WellFormed :=
    List.forall_mem_cons.2 ⟨⟨by decide, by decide⟩, type.formed⟩
  have behind : signBehind [')'] (.plain ':' :: ts) ∉ typeLeaders := by
    rw [signBehind_mem_typeLeaders_iff formed (lastToken?_cons found _), ends]
    exact Bool.false_ne_true
  have passed := annotatedBrace_led formed type.led [')'] before.length (' ' :: '\x7b' :: after)
  have blank : isBlank ' ' = true := by decide
  rw [annotatedBodyBrace?, List.drop_left]
  show annotatedBrace defaultQuotes .code [')'] 0 before.length
    (typeText (.plain ':' :: ts) ++ ' ' :: '\x7b' :: after) = _
  rw [passed, annotatedBrace_plain (by decide) (by decide), if_neg (by decide), blank, if_pos rfl,
    annotatedBrace_body (by decide) ⟨rfl, rfl, behind⟩, typeText_cons, List.length_append]
  congr 1
  simp only [TypeToken.text, List.length_singleton]
  omega

def handlers : List Char :=
  " a: ".toList ++ '\'' :: (['\x7d'] ++ '\'' :: ("; b: ".toList ++ '(' :: ([] ++ ')' :: ' ' :: '=' :: '>' :: [' '])))

def promise : List TypeToken :=
  " Promise".toList.map .plain ++ .group .angle ('\x7b' :: (handlers ++ ['\x7d'])) ::
    (" | ".toList.map .plain ++ [.group .curly ['d']])

theorem grouped_handlers : Grouped handlers := by
  have function : Grouped ('(' :: ([] ++ ')' :: ' ' :: '=' :: '>' :: [' '])) :=
    .group .round .nil (.plain (by decide) (.arrow (.plain (by decide) .nil)))
  apply Grouped.run (by decide)
  apply Grouped.literal (by decide) (.plain (by decide) (by decide) .nil)
  exact .run (by decide) function

theorem returnType_promise : ReturnType promise where
  formed := by
    have object : Grouped ('\x7b' :: (handlers ++ ['\x7d'])) := .group .curly grouped_handlers .nil
    have word : Grouped ['d'] := .plain (by decide) .nil
    have name : ∀ t ∈ " Promise".toList.map TypeToken.plain, t.WellFormed := TypeToken.wellFormed_plain (by decide)
    have bar : ∀ t ∈ " | ".toList.map TypeToken.plain, t.WellFormed := TypeToken.wellFormed_plain (by decide)
    have others : ∀ t ∈ " | ".toList.map TypeToken.plain ++ [.group .curly ['d']], t.WellFormed :=
      List.forall_mem_append.2 ⟨bar, List.forall_mem_singleton.2 word⟩
    exact List.forall_mem_append.2 ⟨name, List.forall_mem_cons.2 ⟨object, others⟩⟩
  led := by decide
  ended := ⟨.group .curly ['d'], by decide, rfl⟩

theorem promise_stepped_over :
    ReturnType promise ∧
      typeText promise = " Promise<\x7b a: '\x7d'; b: () => \x7d> | \x7bd\x7d".toList ∧
      annotatedBodyBrace? ("f()".toList ++ ':' :: (typeText promise ++ ' ' :: '\x7b' :: " \x7d".toList)) 3 [')']
        defaultQuotes = some 41 :=
  ⟨returnType_promise, by decide, annotatedBodyBrace?_returnType returnType_promise "f()".toList " \x7d".toList⟩

end CodeDeck.Scan
