import CodeDeck.Proofs.Scan.Balanced
import CodeDeck.Scan.Signed
import Mathlib.Data.List.Infix

/-! Source text cut into literals, comments and single characters. The block that a scan for braces finds is told by
this cut alone: it ends with the first single closing brace at which as many braces are closed as opened. -/

namespace CodeDeck.Scan

open CodeDeck.Text

inductive Token where
  /-- A quote, the text through the next one like it that stands behind no backslash of its own. -/
  | literal (quote : Char) (inside : List Char)
  | lineComment (inside : List Char)
  | blockComment (inside : List Char)
  | single (c : Char)
  deriving DecidableEq, Repr

namespace Token

def text : Token → List Char
  | literal quote inside => quote :: (inside ++ [quote])
  | lineComment inside => '/' :: '/' :: (inside ++ ['\n'])
  | blockComment inside => '/' :: '*' :: (inside ++ ['*', '/'])
  | single c => [c]

def opening : Token := single '\x7b'

def closing : Token := single '\x7d'

end Token

/-! The cut. -/

def splitAt? (mark : List Char) : List Char → Option (List Char × List Char)
  | [] => none
  | c :: rest =>
    if mark.isPrefixOf (c :: rest) then some ([], (c :: rest).drop mark.length)
    else (splitAt? mark rest).map (Prod.map (c :: ·) id)

/-- The inside of a literal and the text behind the quote that closes it. A backslash takes one character with it. -/
def closeLiteral? (quote : Char) : List Char → Option (List Char × List Char)
  | [] => none
  | [c] => if c = quote then some ([], []) else none
  | c :: d :: rest =>
    if c = quote then some ([], d :: rest)
    else if c = '\\' then (closeLiteral? quote rest).map (Prod.map (c :: d :: ·) id)
    else (closeLiteral? quote (d :: rest)).map (Prod.map (c :: ·) id)

/-- The token at the start and the text behind it; none at the end and where a literal or a comment is not closed. -/
def token? (quotes : List Char) : List Char → Option (Token × List Char)
  | [] => none
  | '/' :: '/' :: rest => (splitAt? ['\n'] rest).map (Prod.map .lineComment id)
  | '/' :: '*' :: rest => (splitAt? ['*', '/'] rest).map (Prod.map .blockComment id)
  | c :: rest =>
    if c ∈ quotes then (closeLiteral? c rest).map (Prod.map (.literal c) id) else some (.single c, rest)

theorem map_front_eq_some_iff {α β : Type} {f : α → β} {o : Option (α × List Char)} {b : β} {rest : List Char} :
    o.map (Prod.map f id) = some (b, rest) ↔ ∃ a, o = some (a, rest) ∧ f a = b := by
  rw [Option.map_eq_some_iff]
  constructor
  · rintro ⟨⟨a, behind⟩, found, same⟩
    obtain ⟨front, rfl⟩ := Prod.mk.inj same
    exact ⟨a, found, front⟩
  · rintro ⟨a, found, rfl⟩
    exact ⟨(a, rest), found, rfl⟩

theorem append_of_splitAt? {mark s inside rest : List Char} (found : splitAt? mark s = some (inside, rest)) :
    s = inside ++ (mark ++ rest) := by
  induction s generalizing inside with
  | nil => contradiction
  | cons c behind ih =>
    rw [splitAt?] at found
    split at found
    · next start =>
      obtain ⟨rfl, rfl⟩ := Prod.mk.inj (Option.some.inj found)
      obtain ⟨more, whole⟩ := List.isPrefixOf_iff_prefix.1 start
      rw [← whole, List.drop_left, List.nil_append]
    · obtain ⟨a, later, rfl⟩ := map_front_eq_some_iff.1 found
      exact congrArg (c :: ·) (ih later)

theorem append_of_closeLiteral? {quote : Char} {s inside rest : List Char}
    (found : closeLiteral? quote s = some (inside, rest)) : s = inside ++ quote :: rest := by
  fun_induction closeLiteral? quote s generalizing inside with
  | case1 => contradiction
  | case2 =>
    obtain ⟨rfl, rfl⟩ := Prod.mk.inj (Option.some.inj found)
    rfl
  | case3 => contradiction
  | case4 =>
    obtain ⟨rfl, rfl⟩ := Prod.mk.inj (Option.some.inj found)
    rfl
  | case5 _ _ _ ih =>
    obtain ⟨a, later, rfl⟩ := map_front_eq_some_iff.1 found
    rw [ih later]
    rfl
  | case6 _ _ _ _ _ ih =>
    obtain ⟨a, later, rfl⟩ := map_front_eq_some_iff.1 found
    rw [ih later]
    rfl

theorem append_of_token? {quotes s rest : List Char} {t : Token} (found : token? quotes s = some (t, rest)) :
    s = t.text ++ rest := by
  unfold token? at found
  split at found
  · contradiction
  · obtain ⟨inside, closed, rfl⟩ := map_front_eq_some_iff.1 found
    rw [append_of_splitAt? closed]
    simp [Token.text]
  · obtain ⟨inside, closed, rfl⟩ := map_front_eq_some_iff.1 found
    rw [append_of_splitAt? closed]
    simp [Token.text]
  · split at found
    · obtain ⟨inside, closed, rfl⟩ := map_front_eq_some_iff.1 found
      rw [append_of_closeLiteral? closed]
      simp [Token.text]
    · obtain ⟨rfl, rfl⟩ := Prod.mk.inj (Option.some.inj found)
      rfl

theorem Token.text_ne_nil (t : Token) : t.text ≠ [] := by cases t <;> exact List.cons_ne_nil _ _

theorem length_lt_of_token? {quotes s rest : List Char} {t : Token} (found : token? quotes s = some (t, rest)) :
    rest.length < s.length := by
  have some := List.length_pos_iff.2 t.text_ne_nil
  rw [append_of_token? found, List.length_append]
  omega

/-- The tokens of a text from the left, up to its end or to a literal or comment that is not closed. -/
def tokens (quotes s : List Char) : List Token :=
  match _found : token? quotes s with
  | none => []
  | some (t, rest) => t :: tokens quotes rest
termination_by s.length
decreasing_by exact length_lt_of_token? _found

example : tokens defaultQuotes "a'\\''//\n/*/*/".toList =
    [.single 'a', .literal '\'' ['\\', '\''], .lineComment [], .blockComment ['/']] := by cbv

theorem exists_uncut (quotes s : List Char) :
    ∃ left, s = (tokens quotes s).flatMap Token.text ++ left ∧ token? quotes left = none := by
  fun_induction tokens quotes s with
  | case1 s stuck => exact ⟨s, rfl, stuck⟩
  | case2 s t rest found ih =>
    obtain ⟨left, same, stuck⟩ := ih
    refine ⟨left, ?_, stuck⟩
    rw [append_of_token? found, List.flatMap_cons, List.append_assoc, ← same]

/-! A scan passes over a literal or a comment, or comes to the end in it. -/

section Scan

variable {b : Brackets} {depth i : Nat} {s rest : List Char}

def unitEndBehind (b : Brackets) (depth i mark : Nat) (hidden : Option (List Char × List Char)) : Option Nat :=
  hidden.bind fun (inside, rest) => unitEnd b .code depth (i + inside.length + mark) rest

theorem unitEndBehind_map (front : List Char) (mark : Nat) (hidden : Option (List Char × List Char)) :
    unitEndBehind b depth i mark (hidden.map (Prod.map (front ++ ·) id)) =
      unitEndBehind b depth (i + front.length) mark hidden := by
  cases hidden with
  | none => rfl
  | some parts => simp [unitEndBehind, Nat.add_assoc]

theorem unitEnd_closeLiteral {quote : Char} :
    unitEnd b (.literal quote) depth i s = unitEndBehind b depth i 1 (closeLiteral? quote s) := by
  fun_induction closeLiteral? quote s generalizing i with
  | case1 => rfl
  | case2 => simp [unitEnd_hidden, Region.next, unitEndBehind]
  | case3 c open_ =>
    rw [unitEnd_hidden Region.noConfusion]
    rfl
  | case4 d rest => simp [unitEnd_hidden, Region.next, unitEndBehind]
  | case5 d rest open_ ih =>
    rw [unitEnd_hidden Region.noConfusion]
    simp only [Region.next, open_, if_false, if_true]
    rw [unitEnd_hidden Region.noConfusion]
    simp only [Region.next, ih]
    exact (unitEndBehind_map ['\\', d] 1 _).symm
  | case6 c d rest open_ single ih =>
    rw [unitEnd_hidden Region.noConfusion]
    simp only [Region.next, open_, single, if_false, ih]
    exact (unitEndBehind_map [c] 1 _).symm

theorem unitEnd_splitLine :
    unitEnd b .lineComment depth i s = unitEndBehind b depth i 1 (splitAt? ['\n'] s) := by
  induction s generalizing i with
  | nil => rfl
  | cons c rest ih =>
    rw [unitEnd_hidden Region.noConfusion, splitAt?]
    by_cases ends : c = '\n'
    · simp [ends, Region.next, unitEndBehind]
    · have goesOn : ¬ ['\n'].isPrefixOf (c :: rest) = true := by simpa using Ne.symm ends
      rw [if_neg goesOn]
      simp only [Region.next, ends, if_false, ih]
      exact (unitEndBehind_map [c] 1 _).symm

theorem unitEnd_splitBlock :
    unitEnd b .blockComment depth i s = unitEndBehind b depth i 2 (splitAt? ['*', '/'] s) := by
  induction s generalizing i with
  | nil => rfl
  | cons c rest ih =>
    rw [unitEnd_hidden Region.noConfusion, splitAt?]
    by_cases ends : c = '*' ∧ rest.head? = some '/'
    · obtain ⟨rfl, slash⟩ := ends
      obtain ⟨behind, rfl⟩ := List.head?_eq_some_iff.1 slash
      simp [Region.next, unitEnd_hidden, unitEndBehind]
    · have goesOn : ¬ ['*', '/'].isPrefixOf (c :: rest) = true := by
        rw [List.isPrefixOf_iff_prefix, List.cons_prefix_cons]
        rintro ⟨rfl, more, rfl⟩
        exact ends ⟨rfl, rfl⟩
      rw [if_neg goesOn]
      simp only [Region.next, ends, if_false, ih]
      exact (unitEndBehind_map [c] 2 _).symm

/-! A scan goes from token to token. -/

def unitEndToken (b : Brackets) (depth i : Nat) (rest : List Char) : Token → Option Nat
  | .single c =>
    if c = b.opening then unitEnd b .code (depth + 1) (i + 1) rest
    else if c = b.closing then
      if depth = 1 then some (i + 1) else unitEnd b .code (depth - 1) (i + 1) rest
    else unitEnd b .code depth (i + 1) rest
  | t => unitEnd b .code depth (i + t.text.length) rest

theorem unitEnd_token (known : b.comments = true) :
    unitEnd b .code depth i s =
      (token? b.quotes s).bind fun found => unitEndToken b depth i found.2 found.1 := by
  have slash : '/' ≠ b.opening ∧ '/' ≠ b.closing := ⟨b.noSlash.1.symm, b.noSlash.2.1.symm⟩
  unfold token?
  split
  · rfl
  · next rest =>
    have opens : Region.code.next b.quotes b.comments '/' (some '/') = .lineComment := by
      simp [Region.next, known, b.noSlash.2.2]
    rw [unitEnd_free slash, List.head?_cons, opens, unitEnd_hidden Region.noConfusion]
    simp only [Region.next, show ('/' : Char) ≠ '\n' by decide, if_false]
    rw [unitEnd_splitLine, unitEndBehind, Option.bind_map]
    congr 1
    funext found
    simp [unitEndToken, Token.text, Nat.add_comm, Nat.add_left_comm]
  · next rest =>
    have opens : Region.code.next b.quotes b.comments '/' (some '*') = .commentOpen := by
      simp [Region.next, known, b.noSlash.2.2]
    rw [unitEnd_free slash, List.head?_cons, opens, unitEnd_hidden Region.noConfusion]
    simp only [Region.next]
    rw [unitEnd_splitBlock, unitEndBehind, Option.bind_map]
    congr 1
    funext found
    simp [unitEndToken, Token.text, Nat.add_comm, Nat.add_left_comm]
  · next c rest noLine noBlock =>
    split
    · next quote =>
      have free : c ≠ b.opening ∧ c ≠ b.closing :=
        ⟨fun same => b.unquoted.1 (same ▸ quote), fun same => b.unquoted.2 (same ▸ quote)⟩
      rw [unitEnd_free free, next_quote quote, unitEnd_closeLiteral, unitEndBehind, Option.bind_map]
      congr 1
      funext found
      simp [unitEndToken, Token.text, Nat.add_comm, Nat.add_left_comm]
    · next plain =>
      have stays : Region.code.next b.quotes b.comments c rest.head? = .code := by
        apply (next_eq_code_iff _).2
        refine ⟨plain, fun _ same => ⟨fun ahead => ?_, fun ahead => ?_⟩⟩
        · obtain ⟨more, rfl⟩ := List.head?_eq_some_iff.1 ahead
          exact noLine more same rfl
        · obtain ⟨more, rfl⟩ := List.head?_eq_some_iff.1 ahead
          exact noBlock more same rfl
      rw [unitEnd]
      simp only [true_and, stays, Option.bind_some, unitEndToken]

end Scan

/-! The first unit of tokens. -/

def fromOpening (ts : List Token) : List Token := ts.dropWhile (· ≠ .opening)

/-- The tokens end with a closing brace, and from the first opening brace on as many are closed as opened. -/
structure IsUnit (ts : List Token) : Prop where
  last : ts.getLast? = some .closing
  opened : .opening ∈ ts
  even : (fromOpening ts).count .closing = (fromOpening ts).count .opening

/-- The tokens end with a closing brace, the first one at which `depth` braces more are closed than opened; with
nothing open, closing braces in front of the first opening one do not count. -/
def Closes : (depth : Nat) → List Token → Prop
  | 0, ts => IsUnit ts
  | depth + 1, ts => ts.getLast? = some .closing ∧ ts.count .closing = ts.count .opening + (depth + 1)

theorem opening_ne_closing : Token.opening ≠ .closing := by decide

theorem not_closes_nil (depth : Nat) : ¬ Closes depth [] := by
  cases depth with
  | zero => exact fun unit => nomatch unit.last
  | succ depth => exact fun ⟨last, _⟩ => nomatch last

theorem getLast?_cons_iff {t : Token} (other : t ≠ .closing) (ts : List Token) :
    (t :: ts).getLast? = some .closing ↔ ts.getLast? = some .closing := by
  cases ts with
  | nil => simpa using other
  | cons u more => rw [List.getLast?_cons_cons]

theorem closes_opening_iff {depth : Nat} {ts : List Token} :
    Closes depth (.opening :: ts) ↔ Closes (depth + 1) ts := by
  have last := getLast?_cons_iff opening_ne_closing ts
  have closed : (Token.opening :: ts).count .closing = ts.count .closing :=
    List.count_cons_of_ne opening_ne_closing
  have opened : (Token.opening :: ts).count .opening = ts.count .opening + 1 := List.count_cons_self
  cases depth with
  | zero =>
    have whole : fromOpening (.opening :: ts) = .opening :: ts := by simp [fromOpening]
    constructor
    · rintro ⟨final, _, even⟩
      rw [whole, closed, opened] at even
      exact ⟨last.1 final, even⟩
    · rintro ⟨final, even⟩
      refine ⟨last.2 final, List.mem_cons_self, ?_⟩
      rw [whole, closed, opened, even]
  | succ depth =>
    rw [Closes, Closes, last, closed, opened]
    apply and_congr_right
    intro _
    omega

theorem closes_closing_iff {depth : Nat} {ts : List Token} :
    Closes (depth + 2) (.closing :: ts) ↔ Closes (depth + 1) ts := by
  have closed : (Token.closing :: ts).count .closing = ts.count .closing + 1 := List.count_cons_self
  have opened : (Token.closing :: ts).count .opening = ts.count .opening :=
    List.count_cons_of_ne opening_ne_closing.symm
  rw [Closes, Closes, closed, opened]
  cases ts with
  | nil => simp
  | cons u more =>
    rw [List.getLast?_cons_cons]
    apply and_congr_right
    intro _
    omega

theorem closes_zero_iff {t : Token} (other : t ≠ .opening) {ts : List Token} :
    Closes 0 (t :: ts) ↔ Closes 0 ts := by
  have same : fromOpening (t :: ts) = fromOpening ts := by simp [fromOpening, other]
  have inside : .opening ∈ t :: ts ↔ .opening ∈ ts := by simp [other.symm]
  have last (opened : .opening ∈ ts) : (t :: ts).getLast? = ts.getLast? := by
    cases ts with
    | nil => contradiction
    | cons u more => rw [List.getLast?_cons_cons]
  constructor
  · rintro ⟨final, opened, even⟩
    have opened := inside.1 opened
    exact ⟨last opened ▸ final, opened, same ▸ even⟩
  · rintro ⟨final, opened, even⟩
    exact ⟨(last opened).symm ▸ final, inside.2 opened, same.symm ▸ even⟩

theorem closes_other_iff {t : Token} (free : t ≠ .opening ∧ t ≠ .closing) {depth : Nat} {ts : List Token} :
    Closes depth (t :: ts) ↔ Closes depth ts := by
  cases depth with
  | zero => exact closes_zero_iff free.1
  | succ depth =>
    rw [Closes, Closes, getLast?_cons_iff free.2, List.count_cons_of_ne free.1, List.count_cons_of_ne free.2]

/-- The tokens `part` with which `ts` starts are the shortest ones that close all. -/
structure ClosesFirst (depth : Nat) (part ts : List Token) : Prop where
  start : part <+: ts
  closes : Closes depth part
  first : ∀ shorter, shorter <+: part → Closes depth shorter → shorter = part

variable {depth depth' i stop : Nat} {part ts : List Token} {t : Token}

theorem closesFirst_cons_iff (step : ∀ more, Closes depth (t :: more) ↔ Closes depth' more) :
    ClosesFirst depth part (t :: ts) ↔ ∃ more, part = t :: more ∧ ClosesFirst depth' more ts := by
  constructor
  · rintro ⟨start, closes, first⟩
    rcases List.prefix_cons_iff.1 start with rfl | ⟨more, rfl, behind⟩
    · exact absurd closes (not_closes_nil depth)
    · refine ⟨more, rfl, behind, (step more).1 closes, ?_⟩
      intro shorter within ends
      have whole := first (t :: shorter) (List.cons_prefix_cons.2 ⟨rfl, within⟩) ((step shorter).2 ends)
      exact List.tail_eq_of_cons_eq whole
  · rintro ⟨more, rfl, behind, closes, first⟩
    refine ⟨List.cons_prefix_cons.2 ⟨rfl, behind⟩, (step more).2 closes, ?_⟩
    intro shorter within ends
    rcases List.prefix_cons_iff.1 within with rfl | ⟨less, rfl, inner⟩
    · exact absurd ends (not_closes_nil depth)
    · rw [first less inner ((step less).1 ends)]

theorem closesFirst_last_iff : ClosesFirst 1 part (.closing :: ts) ↔ part = [.closing] := by
  have ends : Closes 1 [.closing] := ⟨rfl, by decide⟩
  constructor
  · rintro ⟨start, closes, first⟩
    rcases List.prefix_cons_iff.1 start with rfl | ⟨more, rfl, behind⟩
    · exact absurd closes (not_closes_nil 1)
    · exact (first [.closing] (List.cons_prefix_cons.2 ⟨rfl, List.nil_prefix⟩) ends).symm
  · rintro rfl
    refine ⟨List.cons_prefix_cons.2 ⟨rfl, List.nil_prefix⟩, ends, ?_⟩
    intro shorter within closes
    rcases List.prefix_cons_iff.1 within with rfl | ⟨less, rfl, inner⟩
    · exact absurd closes (not_closes_nil 1)
    · rw [List.prefix_nil.1 inner]

theorem exists_closesFirst (start : part <+: ts) (closes : Closes depth part) :
    ∃ first, ClosesFirst depth first ts := by
  induction hn : part.length using Nat.strong_induction_on generalizing part with
  | _ n ih =>
    by_cases least : ∀ shorter, shorter <+: part → Closes depth shorter → shorter = part
    · exact ⟨part, start, closes, least⟩
    · push Not at least
      obtain ⟨shorter, within, ends, other⟩ := least
      have less : shorter.length < n := by
        have length := within.length_le
        have same : shorter.length ≠ part.length := fun same => other (within.eq_of_length same)
        omega
      exact ih _ less (within.trans start) ends rfl

/-! The scan for braces stops behind the first unit. -/

section Braces

variable {quotes s : List Char}

theorem exists_closesFirst_cons (step : ∀ more, Closes depth (t :: more) ↔ Closes depth' more) :
    (∃ more, ClosesFirst depth' more ts ∧ stop = i + t.text.length + (more.flatMap Token.text).length) ↔
      ∃ part, ClosesFirst depth part (t :: ts) ∧ stop = i + (part.flatMap Token.text).length := by
  constructor
  · rintro ⟨more, first, rfl⟩
    refine ⟨t :: more, (closesFirst_cons_iff step).2 ⟨more, rfl, first⟩, ?_⟩
    rw [List.flatMap_cons, List.length_append, Nat.add_assoc]
  · rintro ⟨part, first, rfl⟩
    obtain ⟨more, rfl, behind⟩ := (closesFirst_cons_iff step).1 first
    refine ⟨more, behind, ?_⟩
    rw [List.flatMap_cons, List.length_append, Nat.add_assoc]

theorem unitEndToken_other {b : Brackets} {rest : List Char} (other : t ≠ .single b.opening ∧ t ≠ .single b.closing) :
    unitEndToken b depth i rest t = unitEnd b .code depth (i + t.text.length) rest := by
  cases t with
  | single c =>
    have free : c ≠ b.opening ∧ c ≠ b.closing := by simpa using other
    rw [unitEndToken, if_neg free.1, if_neg free.2]
    rfl
  | _ => rfl

/-- A scan stops behind the first tokens that close all braces, if there are any. -/
theorem unitEnd_eq_some_iff_closesFirst (admitted : braces.Admits quotes) :
    unitEnd (braces.withQuotes quotes admitted) .code depth i s = some stop ↔
      ∃ part, ClosesFirst depth part (tokens quotes s) ∧ stop = i + (part.flatMap Token.text).length := by
  -- the cut into tokens drives the induction: each token changes the depth as `Closes` does
  fun_induction tokens quotes s generalizing depth i with
  | case1 s stuck =>
    have stops : unitEnd (braces.withQuotes quotes admitted) .code depth i s = none := by
      rw [unitEnd_token rfl]
      exact congrArg (Option.bind · _) stuck
    rw [stops]
    constructor
    · intro found
      contradiction
    · rintro ⟨part, first, _⟩
      exact absurd (List.prefix_nil.1 first.start ▸ first.closes) (not_closes_nil depth)
  | case2 s t rest found ih =>
    have steps : unitEnd (braces.withQuotes quotes admitted) .code depth i s =
        unitEndToken (braces.withQuotes quotes admitted) depth i rest t := by
      rw [unitEnd_token rfl]
      exact congrArg (Option.bind · _) found
    rw [steps]
    by_cases opens : t = .opening
    · subst opens
      exact ih.trans (exists_closesFirst_cons fun _ => closes_opening_iff)
    by_cases closes : t = .closing
    · subst closes
      match depth with
      | 0 => exact ih.trans (exists_closesFirst_cons fun _ => closes_zero_iff opens)
      | 1 =>
        have last : unitEndToken (braces.withQuotes quotes admitted) 1 i rest .closing = some (i + 1) := rfl
        rw [last]
        constructor
        · intro same
          exact ⟨[.closing], closesFirst_last_iff.2 rfl, (Option.some.inj same).symm⟩
        · rintro ⟨part, first, rfl⟩
          rw [closesFirst_last_iff.1 first]
          rfl
      | depth + 2 => exact ih.trans (exists_closesFirst_cons fun _ => closes_closing_iff)
    · rw [unitEndToken_other ⟨opens, closes⟩]
      exact ih.trans (exists_closesFirst_cons fun _ => closes_other_iff ⟨opens, closes⟩)

theorem braceBlock?_eq_some_iff (admitted : braces.Admits quotes) {source code : List Char} {start scanFrom : Nat} :
    braceBlock? source start scanFrom quotes = some code ↔
      ∃ unit, ClosesFirst 0 unit (tokens quotes (source.drop scanFrom)) ∧
        code = slice source start (scanFrom + (unit.flatMap Token.text).length) := by
  rw [braceBlock?, braceEnd_eq admitted, Option.map_eq_some_iff]
  constructor
  · rintro ⟨stop, ends, rfl⟩
    obtain ⟨unit, first, rfl⟩ := (unitEnd_eq_some_iff_closesFirst admitted).1 ends
    exact ⟨unit, first, rfl⟩
  · rintro ⟨unit, first, rfl⟩
    exact ⟨_, (unitEnd_eq_some_iff_closesFirst admitted).2 ⟨unit, first, rfl⟩, rfl⟩

end Braces

theorem slice_min (s : List Char) (start stop : Nat) :
    slice s (min start s.length) (min stop s.length) = slice s start stop := by
  simp only [slice]
  by_cases inside : start ≤ s.length
  · rw [Nat.min_eq_left inside]
    by_cases before : stop ≤ s.length
    · rw [Nat.min_eq_left before]
    · have whole : (s.drop start).length ≤ s.length - start := by rw [List.length_drop]
      rw [Nat.min_eq_right (by omega), List.take_of_length_le whole, List.take_of_length_le (by omega)]
  · rw [Nat.min_eq_right (Nat.le_of_not_le inside), List.drop_length, List.drop_of_length_le (Nat.le_of_not_le inside)]
    simp

theorem signedBraceBlock?_natCast (source quotes : List Char) (start scanFrom : Nat) :
    signedBraceBlock? source start scanFrom quotes = .ok (braceBlock? source start scanFrom quotes) := by
  have inside : ¬ (source.length + scanFrom : Int) < 0 := by omega
  have forward : ¬ (scanFrom : Int) < 0 := by omega
  simp only [signedBraceBlock?, braceBlock?, inside, forward, if_false, Int.toNat_natCast]
  cases braceEnd quotes .code 0 scanFrom (source.drop scanFrom) with
  | none => rfl
  | some stop =>
    show Except.ok (some (slice source _ (resolveOffset source.length (stop : Nat)))) = _
    rw [resolveOffset_natCast, resolveOffset_natCast, slice_min]
    rfl

/-- The block found by a scan for braces follows from the cut into tokens: it reaches through the shortest unit with
which the tokens start, and there is none if they start with no unit. Behind the tokens stands nothing, or a literal
or comment that is not closed. -/
theorem braceBlock?_lexical {quotes : List Char}
    (admitted : '\x7b' ∉ quotes ∧ '\x7d' ∉ quotes ∧ '/' ∉ quotes ∧ '\\' ∉ quotes) (source : List Char)
    (start scanFrom : Nat) :
    signedBraceBlock? source start scanFrom quotes = .ok (braceBlock? source start scanFrom quotes) ∧
    (∃ left, source.drop scanFrom = (tokens quotes (source.drop scanFrom)).flatMap Token.text ++ left ∧
      token? quotes left = none) ∧
    (∀ code, braceBlock? source start scanFrom quotes = some code ↔
      ∃ unit, unit <+: tokens quotes (source.drop scanFrom) ∧ IsUnit unit ∧
        (∀ part, part <+: unit → IsUnit part → part = unit) ∧
        code = slice source start (scanFrom + (unit.flatMap Token.text).length)) ∧
    (braceBlock? source start scanFrom quotes = none ↔
      ∀ part, part <+: tokens quotes (source.drop scanFrom) → ¬ IsUnit part) := by
  refine ⟨signedBraceBlock?_natCast source quotes start scanFrom, exists_uncut quotes _, ?_, ?_⟩
  · intro code
    rw [braceBlock?_eq_some_iff admitted]
    constructor
    · rintro ⟨unit, first, same⟩
      exact ⟨unit, first.start, first.closes, first.first, same⟩
    · rintro ⟨unit, begins, isUnit, first, same⟩
      exact ⟨unit, ⟨begins, isUnit, first⟩, same⟩
  · rw [Option.eq_none_iff_forall_ne_some]
    constructor
    · intro none part begins isUnit
      have closes : Closes 0 part := isUnit
      obtain ⟨unit, first⟩ := exists_closesFirst begins closes
      exact none _ ((braceBlock?_eq_some_iff admitted).2 ⟨unit, first, rfl⟩)
    · intro none code found
      obtain ⟨unit, first, _⟩ := (braceBlock?_eq_some_iff admitted).1 found
      exact none unit first.start first.closes

def hiddenBraces : List Char := "\x7d f('\\'\x7d') \x7b /*/ \x7d */ \x7d \x7d".toList

theorem hidden_braces_passed :
    ('\x7b' ∉ defaultQuotes ∧ '\x7d' ∉ defaultQuotes ∧ '/' ∉ defaultQuotes ∧ '\\' ∉ defaultQuotes) ∧
    braceBlock? hiddenBraces 2 0 defaultQuotes = some "f('\\'\x7d') \x7b /*/ \x7d */ \x7d".toList ∧
    ∃ unit, unit <+: tokens defaultQuotes hiddenBraces ∧ IsUnit unit ∧
      (∀ part, part <+: unit → IsUnit part → part = unit) ∧
      "f('\\'\x7d') \x7b /*/ \x7d */ \x7d".toList = slice hiddenBraces 2 (0 + (unit.flatMap Token.text).length) := by
  have found : braceBlock? hiddenBraces 2 0 defaultQuotes = some "f('\\'\x7d') \x7b /*/ \x7d */ \x7d".toList := by
    decide
  have admitted : '\x7b' ∉ defaultQuotes ∧ '\x7d' ∉ defaultQuotes ∧ '/' ∉ defaultQuotes ∧ '\\' ∉ defaultQuotes := by
    decide
  exact ⟨admitted, found, ((braceBlock?_lexical admitted hiddenBraces 2 0).2.2.1 _).1 found⟩

end CodeDeck.Scan
