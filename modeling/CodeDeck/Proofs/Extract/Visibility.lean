import CodeDeck.Extract.Visibility
import CodeDeck.Proofs.Extract.Declaration
import CodeDeck.Proofs.Extract.Grammar
import CodeDeck.Proofs.Pattern.Clear
import CodeDeck.Proofs.Pattern.Found
import CodeDeck.Proofs.Scan.Body

/-! Public functions of Swift whose body starts on the line of the signature. The head of a function is found wherever
it starts a line, with the annotations above it, unless a head without a name ends there. The block made of it goes
through the body, except when an equals sign stands in front of the body. -/

namespace CodeDeck.Extract.Visibility

open CodeDeck.Text CodeDeck.Pattern CodeDeck.Scan

/-! The parts of a head. Each has something within a line, and blanks behind it. -/

def Inked (s : List Char) : Prop := ∃ c, s.head? = some c ∧ isBlank c = false

theorem Inked.append {s : List Char} (inked : Inked s) (t : List Char) : Inked (s ++ t) := by
  obtain ⟨c, first, plain⟩ := inked
  exact ⟨c, by rw [List.head?_append, first]; rfl, plain⟩

theorem Inked.of_word {w : List Char} (some : w ≠ []) (word : ∀ c ∈ w, isWord c = true) : Inked w := by
  obtain ⟨c, more, rfl⟩ := List.exists_cons_of_ne_nil some
  exact ⟨c, rfl, isBlank_of_isWord (word c List.mem_cons_self)⟩

theorem Inked.eq_nil {gap s : List Char} (inked : Inked (gap ++ s)) (blank : ∀ c ∈ gap, isBlank c = true) :
    gap = [] := by
  obtain ⟨c, first, plain⟩ := inked
  cases gap with
  | nil => rfl
  | cons d more =>
    obtain rfl : d = c := Option.some.inj first
    rw [blank d List.mem_cons_self] at plain
    contradiction

/-- Text within a line that starts with `c`, and blanks behind it. -/
def IsPart (c : Char) (part : List Char) : Prop :=
  ∃ w gap, part = w ++ gap ∧ w.head? = some c ∧ isBlank c = false ∧ '\n' ∉ w ∧ ∀ d ∈ gap, isBlank d = true

theorem IsPart.head {c : Char} {part : List Char} (is : IsPart c part) (rest : List Char) :
    (part ++ rest).head? = some c := by
  obtain ⟨w, gap, rfl, first, _⟩ := is
  rw [List.append_assoc, List.head?_append, first]
  rfl

theorem IsPart.inked {c : Char} {part : List Char} (is : IsPart c part) (rest : List Char) : Inked (part ++ rest) := by
  have first := is.head rest
  obtain ⟨_, _, _, _, plain, _⟩ := is
  exact ⟨c, first, plain⟩

section Cut

variable {margin text : List Char} (blank : ∀ c ∈ margin, isBlank c = true) (inked : Inked text)
include blank inked

theorem gap_cut {gap rest front : List Char} (spaces : ∀ c ∈ gap, isBlank c = true) (ahead : Inked rest)
    (same : gap ++ rest = front ++ '\n' :: (margin ++ text)) :
    (gap = front ++ '\n' :: margin ∧ rest = text) ∨
      ∃ more, front = gap ++ more ∧ rest = more ++ '\n' :: (margin ++ text) := by
  have whole : gap ++ rest = (front ++ '\n' :: margin) ++ text := by
    rw [same, List.append_assoc, List.cons_append]
  rcases List.append_eq_append_iff.1 whole with ⟨more, reached, behind⟩ | ⟨more, rfl, behind⟩
  · rcases List.append_eq_append_iff.1 reached with ⟨left, rfl, final⟩ | ⟨left, rfl, final⟩
    · have within : ∀ c ∈ more, isBlank c = true := by
        intro c member
        have listed : c ∈ '\n' :: margin := final ▸ List.mem_append_right _ member
        rcases List.mem_cons.1 listed with rfl | indented
        · decide
        · exact blank c indented
      obtain rfl : more = [] := (behind ▸ ahead).eq_nil within
      rw [List.append_nil] at final
      exact .inl ⟨by rw [final], behind⟩
    · refine .inr ⟨left, rfl, ?_⟩
      rw [behind, final, List.append_assoc, List.cons_append]
  · obtain rfl : more = [] := (behind ▸ inked).eq_nil fun c member => spaces c (List.mem_append_right _ member)
    exact .inl ⟨List.append_nil _, behind.symm⟩

theorem part_cut {c : Char} {part rest front : List Char} (is : IsPart c part) (ahead : Inked rest)
    (same : part ++ rest = front ++ '\n' :: (margin ++ text)) :
    (part = front ++ '\n' :: margin ∧ rest = text) ∨
      ∃ more, front = part ++ more ∧ rest = more ++ '\n' :: (margin ++ text) := by
  obtain ⟨w, gap, rfl, _, _, oneLine, spaces⟩ := is
  rw [List.append_assoc] at same
  obtain ⟨left, rfl⟩ := (prefix_or_mem (same ▸ List.prefix_append ..)).resolve_right oneLine
  rw [List.append_assoc, List.append_cancel_left_eq] at same
  rcases gap_cut blank inked spaces ahead same with ⟨rfl, reached⟩ | ⟨more, rfl, behind⟩
  · exact .inl ⟨(List.append_assoc ..).symm, reached⟩
  · exact .inr ⟨more, (List.append_assoc ..).symm, behind⟩

theorem parts_cut {parts : List (List Char)} {rest front : List Char} (each : ∀ part ∈ parts, ∃ c, IsPart c part)
    (ahead : Inked rest) (same : parts.flatten ++ rest = front ++ '\n' :: (margin ++ text)) :
    (∃ done left, parts = done ++ left ∧ done.flatten = front ++ '\n' :: margin ∧ left.flatten ++ rest = text) ∨
      ∃ more, front = parts.flatten ++ more ∧ rest = more ++ '\n' :: (margin ++ text) := by
  induction parts generalizing front with
  | nil => exact .inr ⟨front, rfl, same⟩
  | cons part more ih =>
    obtain ⟨⟨c, is⟩, each⟩ := List.forall_mem_cons.1 each
    have next : Inked (more.flatten ++ rest) := by
      cases more with
      | nil => exact ahead
      | cons second others =>
        obtain ⟨d, own⟩ := each second List.mem_cons_self
        rw [List.flatten_cons, List.append_assoc]
        exact own.inked _
    rw [List.flatten_cons, List.append_assoc] at same
    rcases part_cut blank inked is next same with ⟨whole, reached⟩ | ⟨left, rfl, behind⟩
    · exact .inl ⟨[part], more, rfl, by rw [List.flatten_singleton, whole], reached⟩
    · rcases ih each behind with ⟨done, others, rfl, whole, reached⟩ | ⟨rest', rfl, final⟩
      · refine .inl ⟨part :: done, others, rfl, ?_, reached⟩
        rw [List.flatten_cons, whole, List.append_assoc]
      · exact .inr ⟨rest', by rw [List.flatten_cons, List.append_assoc], final⟩

end Cut

/-! What the pattern of a head takes. -/

def marker : Pattern := ofList [word "@", name, optional (enclosed '(' ')' (exceptInLine ')')), blanks1]

def visibility : Pattern := .both (anyWord ["public", "open"]) blanks1

def keyword : List Pattern :=
  [modifiers functionModifiers, anyWord ["func", "fun"], blanks1,
    optional (.both (enclosed '<' '>' (exceptInLine '>')) blanks)]

def receiver : Pattern := optional (.both (.run isReceiverChar 1) (word "."))

def signature : Pattern :=
  ofList (anyWord ["public", "open"] :: blanks1 :: (keyword ++ [receiver, .keep 1 name]))

theorem run?_functionHead (limit : Nat) (place : Place) (complete : Place → Option Place) :
    run? limit functionHead place complete =
      run? limit (.both .lineStart (.both indent (.both (.repeated marker) signature))) place complete := rfl

theorem exists_word_of_takes {words : List String} {taken : List Char} (takes : (anyWord words).Takes taken) :
    ∃ v ∈ words, taken = v.toList := by
  induction words with
  | nil =>
    obtain ⟨_, absurd, _⟩ := takes
    contradiction
  | cons v others ih =>
    cases others with
    | nil => exact ⟨v, List.mem_singleton_self v, takes⟩
    | cons u more =>
      rcases takes with here | later
      · exact ⟨v, List.mem_cons_self, here⟩
      · obtain ⟨w, listed, same⟩ := ih later
        exact ⟨w, List.mem_cons_of_mem _ listed, same⟩

theorem isPart_of_takes {words : List String} (first : Char → Bool)
    (plain : words.all fun v => v.toList.head?.any (fun c => first c && !isBlank c) && !v.toList.contains '\n')
    {part : List Char} (takes : (Pattern.both (anyWord words) blanks1).Takes part) :
    ∃ c, first c = true ∧ IsPart c part := by
  obtain ⟨w, gap, rfl, takes, _, blank⟩ := takes
  obtain ⟨v, listed, rfl⟩ := exists_word_of_takes takes
  have both := List.all_eq_true.1 plain v listed
  simp only [Bool.and_eq_true, Option.any_eq_true, Bool.not_eq_true', List.contains_eq_mem, decide_eq_false_iff_not]
    at both
  obtain ⟨⟨c, head, own, inked⟩, oneLine⟩ := both
  exact ⟨c, own, v.toList, gap, rfl, head, inked, oneLine, blank⟩

theorem uses_enclosed {opening closing : Char} {P : Char → Prop} {allowed : Char → Bool} (opens : P opening)
    (closes : P closing) (inside : ∀ c, allowed c = true → P c) : (enclosed opening closing allowed).Uses P :=
  ⟨List.forall_mem_singleton.2 opens, inside, List.forall_mem_singleton.2 closes⟩

theorem word_inLine (c : Char) (word : isWord c = true) : c ≠ '\n' := by
  rintro rfl
  exact absurd word (by decide)

theorem exceptInLine_inLine {closing : Char} (c : Char) (allowed : exceptInLine closing c = true) : c ≠ '\n' := by
  rintro rfl
  simp [exceptInLine] at allowed

theorem marker_isPart {part : List Char} (takes : marker.Takes part) : IsPart '@' part := by
  obtain ⟨sign, _, rfl, at_, own, _, rfl, named, given, gap, rfl, args, _, blank⟩ := takes
  have namedInLine := forall_of_takes named (P := (· ≠ '\n')) word_inLine
  have argsInLine := forall_of_takes args (P := (· ≠ '\n'))
    (Uses.optional (uses_enclosed (by decide) (by decide) exceptInLine_inLine))
  obtain rfl := show sign = ['@'] from at_
  refine ⟨'@' :: (own ++ given), gap, by simp, rfl, by decide, ?_, blank⟩
  simp only [List.mem_cons, List.mem_append, not_or]
  exact ⟨by decide, fun member => namedInLine _ member rfl, fun member => argsInLine _ member rfl⟩

theorem angle_isPart {part : List Char}
    (takes : (Pattern.both (enclosed '<' '>' (exceptInLine '>')) blanks).Takes part) : IsPart '<' part := by
  obtain ⟨angle, gap, rfl, angled, _, blank⟩ := takes
  have inLine := forall_of_takes angled (P := (· ≠ '\n')) (uses_enclosed (by decide) (by decide) exceptInLine_inLine)
  obtain ⟨sign, more, rfl, opens, _⟩ := angled
  obtain rfl := show sign = ['<'] from opens
  exact ⟨'<' :: more, gap, rfl, rfl, by decide, fun member => inLine _ member rfl, blank⟩

theorem called_inLine {taken : List Char} (takes : (Pattern.both receiver (.keep 1 name)).Takes taken) :
    Inked taken ∧ '\n' ∉ taken := by
  have plain (c : Char) (inside : isReceiverChar c = true) : isBlank c = false ∧ c ≠ '\n' := by
    simp only [isReceiverChar, Bool.or_eq_true, beq_iff_eq] at inside
    rcases inside with ((word | rfl) | rfl) | rfl
    · exact ⟨isBlank_of_isWord word, word_inLine c word⟩
    all_goals decide
  have inLine := forall_of_takes takes (P := (· ≠ '\n'))
    ⟨Uses.optional ⟨fun c inside => (plain c inside).2, uses_word (by decide)⟩, word_inLine⟩
  refine ⟨?_, fun member => inLine _ member rfl⟩
  obtain ⟨_, own, rfl, ⟨letters, dot, rfl, ⟨long, inside⟩, _⟩ | none, ⟨named, word⟩⟩ := takes
  · obtain ⟨c, more, rfl⟩ := List.exists_cons_of_length_pos long
    exact ⟨c, rfl, (plain c (inside c List.mem_cons_self)).1⟩
  · rw [show _ = [] from none]
    exact .of_word (List.ne_nil_of_length_pos named) word

theorem exists_parts {taken : List Char} (takes : signature.Takes taken) :
    ∃ (shown : List Char) (parts : List (List Char)) (last : List Char),
      taken = shown ++ (parts.flatten ++ last) ∧ visibility.Takes shown ∧
      (ofList keyword).Takes parts.flatten ∧ (∃ c, IsPart c shown) ∧ (∀ part ∈ parts, ∃ c, c ≠ 'p' ∧ IsPart c part) ∧
      Inked last ∧ '\n' ∉ last := by
  obtain ⟨w, _, rfl, access, gap, _, rfl, spaces, _, _, rfl, ⟨mods, rfl, each⟩, func, _, rfl, function, gap', _, rfl,
    spaces', angle, last, rfl, angled, called⟩ := takes
  have other {c : Char} (fits : (c != 'p') = true) : c ≠ 'p' := bne_iff_ne.1 fits
  have keyword : ∃ c, c ≠ 'p' ∧ IsPart c (func ++ gap') := by
    obtain ⟨c, fits, is⟩ := isPart_of_takes (· != 'p') (by decide) ⟨func, gap', rfl, function, spaces'⟩
    exact ⟨c, other fits, is⟩
  have modifiers : ∀ part ∈ mods, ∃ c, c ≠ 'p' ∧ IsPart c part := by
    intro part listed
    obtain ⟨c, fits, is⟩ := isPart_of_takes (· != 'p') (by decide) (each part listed)
    exact ⟨c, other fits, is⟩
  have shown : ∃ c, IsPart c (w ++ gap) := by
    obtain ⟨c, _, is⟩ := isPart_of_takes (fun _ => true) (by decide) ⟨w, gap, rfl, access, spaces⟩
    exact ⟨c, is⟩
  obtain ⟨inked, oneLine⟩ := called_inLine called
  obtain ⟨tail, same, angles⟩ : ∃ tail : List (List Char), angle = tail.flatten ∧
      ∀ part ∈ tail, ∃ c, c ≠ 'p' ∧ IsPart c part := by
    rcases angled with some | none
    · exact ⟨[angle], List.flatten_singleton.symm, List.forall_mem_singleton.2 ⟨'<', by decide, angle_isPart some⟩⟩
    · exact ⟨[], none, by simp⟩
  refine ⟨w ++ gap, mods ++ (func ++ gap') :: tail, last, ?_, ⟨w, gap, rfl, access, spaces⟩, ?_, shown, ?_, inked,
    oneLine⟩
  · simp [same]
  · refine ⟨mods.flatten, func ++ (gap' ++ angle), by simp [same], ⟨mods, rfl, each⟩, ?_⟩
    exact ⟨func, gap' ++ angle, rfl, function, gap', angle, rfl, spaces', angled⟩
  · intro part listed
    rcases List.mem_append.1 listed with here | later
    · exact modifiers part here
    · rcases List.mem_cons.1 later with rfl | final
      · exact keyword
      · exact angles part final

/-! The head of a function is found. -/

/-- A head whose name is missing. -/
def unnamed : Pattern := ofList (opening :: keyword)

def EndsUnnamed (s : List Char) : Prop :=
  ∃ front head, s = front ++ head ∧ StartsLine (lastOr front none) ∧ unnamed.Takes head

theorem EndsUnnamed.fun_isInfix {s : List Char} (ends : EndsUnnamed s) : "fun".toList <:+: s := by
  obtain ⟨front, _, rfl, _, opened, _, rfl, _, mods, _, rfl, _, func, rest, rfl, takes, _⟩ := ends
  obtain ⟨v, listed, rfl⟩ := exists_word_of_takes takes
  have spelled : ∀ v ∈ ["func", "fun"], "fun".toList <+: v.toList := by decide
  obtain ⟨more, same⟩ := spelled v listed
  exact ⟨front ++ (opened ++ mods), more ++ rest, by simp [← same]⟩

theorem unnamed_takes {gap marks shown more : List Char} (indented : indent.Takes gap)
    (annotated : (Pattern.repeated marker).Takes marks) (access : visibility.Takes shown)
    (takes : (ofList keyword).Takes more) : unnamed.Takes (gap ++ (marks ++ (shown ++ more))) := by
  obtain ⟨w, blank, rfl, own, spaces⟩ := access
  have opened : opening.Takes (gap ++ (marks ++ (w ++ blank))) :=
    ⟨[], _, rfl, rfl, gap, _, rfl, indented, marks, _, rfl, annotated, w, blank, rfl, own, spaces⟩
  exact ⟨_, more, by simp, opened, takes⟩

theorem annotations_or_all {annotations parts done left : List (List Char)} {shown tail : List Char}
    (signed : ∀ part ∈ annotations, IsPart '@' part) (others : ∀ part ∈ parts, ∃ c, c ≠ 'p' ∧ IsPart c part)
    (split : annotations ++ shown :: parts = done ++ left) (first : (left.flatten ++ tail).head? = some 'p') :
    (done = annotations ∧ left = shown :: parts) ∨ left = [] := by
  cases left with
  | nil => exact .inr rfl
  | cons second left =>
    have head {c : Char} (is : IsPart c second) : c = 'p' := by
      rw [List.flatten_cons, List.append_assoc, is.head] at first
      exact Option.some.inj first
    rcases List.append_eq_append_iff.1 split with ⟨after, rfl, next⟩ | ⟨after, rfl, next⟩
    · cases after with
      | nil => exact .inl ⟨List.append_nil _, next.symm⟩
      | cons third after =>
        obtain ⟨c, other, is⟩ := others second (by rw [(List.cons.inj next).2]; simp)
        exact absurd (head is) other
    · cases after with
      | nil => exact .inl ⟨(List.append_nil _).symm, next⟩
      | cons third after =>
        obtain rfl : second = third := (List.cons.inj next).1
        exact absurd (head (signed second (by simp))) (by decide)

/-- A match of a head that starts above the line of a function, and does not end above it, has the annotations of the
function in front of its signature there. -/
theorem exists_signature {limit : Nat} {place finish : Place} {front margin text : List Char}
    (run : run? limit functionHead place some = some finish)
    (ahead : place.rest = front ++ '\n' :: (margin ++ text)) (blank : ∀ c ∈ margin, isBlank c = true)
    (first : text.head? = some 'p') (beyond : place.offset + front.length < finish.offset)
    (named : StartsLine place.previous → ¬ unnamed.Takes (front ++ '\n' :: margin)) :
    StartsLine place.previous ∧ ∃ gap marks kept, front ++ '\n' :: margin = gap ++ marks ∧ indent.Takes gap ∧
      (Pattern.repeated marker).Takes marks ∧
      run? limit signature (place.behind (gap ++ marks) text kept) some = some finish := by
  rw [run?_functionHead] at run
  obtain ⟨start, run⟩ := startsLine_of_run? run
  obtain ⟨gap, rest, _, indented, whole, run⟩ := exists_first_of_run? run
  obtain ⟨marks, rest', kept, ⟨annotations, rfl, each⟩, whole', run⟩ := exists_first_of_run? run
  obtain ⟨taken, behind, _, takes, whole'', final⟩ := reaches_of_run? run
  obtain rfl : rest = annotations.flatten ++ rest' := whole'
  obtain rfl : rest' = taken ++ behind := whole''
  obtain ⟨shown, parts, last, rfl, access, keyed, ⟨c, shows⟩, others, inked, oneLine⟩ := exists_parts takes
  refine ⟨start, ?_⟩
  -- The match is cut into parts that are each on one line, and the line break in front of the function falls between
  -- two of them.
  have inLine : '\n' ∉ gap := by
    intro member
    exact absurd (indented.2 _ member) (by decide)
  have same : gap ++ ((annotations ++ shown :: parts).flatten ++ (last ++ behind)) =
      front ++ '\n' :: (margin ++ text) := by
    rw [← ahead, whole]
    simp
  obtain ⟨front, rfl⟩ := (prefix_or_mem (same ▸ List.prefix_append ..)).resolve_right inLine
  rw [List.append_assoc, List.append_cancel_left_eq] at same
  have isPart : ∀ part ∈ annotations ++ shown :: parts, ∃ c, IsPart c part := by
    intro part listed
    rcases List.mem_append.1 listed with here | later
    · exact ⟨'@', marker_isPart (each part here)⟩
    · rcases List.mem_cons.1 later with rfl | final
      · exact ⟨c, shows⟩
      · obtain ⟨d, _, is⟩ := others part final
        exact ⟨d, is⟩
  rcases parts_cut blank ⟨'p', first, by decide⟩ isPart (inked.append _) same with
    ⟨done, left, split, reached, onward⟩ | ⟨more, rfl, onward⟩
  · rcases annotations_or_all (fun part here => marker_isPart (each part here)) others split (onward ▸ first) with
      ⟨rfl, rfl⟩ | rfl
    · refine ⟨gap, done.flatten, kept, by rw [reached, List.append_assoc], indented, ⟨done, rfl, each⟩, ?_⟩
      rw [← onward]
      rw [Place.behind_behind] at run
      simpa using run
    · rw [List.append_nil] at split
      have missing := unnamed_takes indented ⟨annotations, rfl, each⟩ access keyed
      rw [← split] at reached
      simp only [List.flatten_append, List.flatten_cons] at reached
      rw [reached, ← List.append_assoc] at missing
      exact absurd missing (named start)
  · obtain ⟨rest, rfl⟩ := (prefix_or_mem (onward ▸ List.prefix_append ..)).resolve_right oneLine
    obtain rfl := Option.some.inj final
    simp only [Place.behind, List.length_append, List.flatten_append, List.flatten_cons] at beyond
    omega

/-! Functions and their text. -/

structure Function where
  name : List Char
  parameters : List Char
  tail : List Char
  body : List Char
  deriving DecidableEq, Repr

namespace Function

def head (d : Function) : List Char := "public func ".toList ++ d.name

def lead (d : Function) : List Char := d.head ++ '(' :: (d.parameters ++ ')' :: d.tail)

def text (d : Function) : List Char := d.lead ++ '\x7b' :: (d.body ++ ['\x7d'])

/-- A name, balanced parameters and body, and between them a text within the line that has neither a brace nor a
semicolon. -/
structure WellFormed (d : Function) : Prop where
  named : d.name ≠ []
  word : ∀ c ∈ d.name, isWord c = true
  parameters : Balanced parens d.parameters
  oneLine : '\n' ∉ d.tail
  unbraced : '\x7b' ∉ d.tail
  undivided : ';' ∉ d.tail
  body : Balanced braces d.body

def block (file : File) (marks : List Char) (d : Function) : Block where
  name := String.ofList d.name
  kind := .function
  code := String.ofList (marks ++ d.text)
  filePath := file.path
  language := file.language
  docText := none
  lineCount := (lines (marks ++ d.text)).length

variable {d : Function}

theorem text_append (d : Function) (after : List Char) :
    d.text ++ after =
      d.head ++ '(' :: (d.parameters ++ ')' :: (d.tail ++ '\x7b' :: (d.body ++ '\x7d' :: after))) := by
  rw [text, lead]
  simp only [List.append_assoc, List.cons_append, List.nil_append]

theorem no_modifier {rest : List Char} (reached : rest.take 2 = "fu".toList) :
    (modifiers functionModifiers).Prefers [] rest [] := by
  apply prefers_no_more
  intro starts
  obtain ⟨w, behind, same, takes, _⟩ := starts.both
  obtain ⟨v, listed, rfl⟩ := exists_word_of_takes takes
  have apart : ∀ v ∈ functionModifiers, 2 ≤ v.toList.length ∧ v.toList.take 2 ≠ "fu".toList := by decide
  obtain ⟨long, other⟩ := apart v listed
  rw [same, List.take_append_of_le_length long] at reached
  exact other reached

theorem no_angle (named : d.name ≠ []) (word : ∀ c ∈ d.name, isWord c = true) (rest : List Char) :
    (optional (.both (enclosed '<' '>' (exceptInLine '>')) blanks)).Prefers [] (d.name ++ '(' :: rest) [] := by
  apply prefers_without
  intro starts
  obtain ⟨angle, behind, same, takes, _⟩ := starts.both
  obtain ⟨sign, more, rfl, opens, _⟩ := takes
  obtain rfl := show sign = ['<'] from opens
  cases spelled : d.name with
  | nil => exact named spelled
  | cons c letters =>
    rw [spelled] at same
    obtain rfl : c = '<' := (List.cons.inj same).1
    exact absurd (word '<' (by simp [spelled])) (by decide)

theorem no_receiver (word : ∀ c ∈ d.name, isWord c = true) (rest : List Char) :
    receiver.Prefers [] (d.name ++ '(' :: rest) [] := by
  apply prefers_without
  intro starts
  obtain ⟨letters, behind, same, ⟨_, inside⟩, more⟩ := starts.both
  have open_ : '(' ∉ letters := by
    intro member
    exact absurd (inside '(' member) (by decide)
  have start : letters <+: d.name ++ '(' :: rest := same ▸ List.prefix_append ..
  obtain ⟨left, spelled⟩ := (prefix_or_mem start).resolve_right open_
  rw [← spelled, List.append_assoc, List.append_cancel_left_eq] at same
  obtain ⟨behind, rfl⟩ := more.text
  cases left with
  | nil => exact absurd (List.cons.inj same).1 (by decide)
  | cons c left =>
    obtain rfl : c = '.' := (List.cons.inj same).1
    have letter : isWord '.' = true := word '.' (by simp [← spelled])
    exact absurd letter (by decide)

theorem head_takes (formed : d.WellFormed) (rest : List Char) :
    signature.Prefers d.head ('(' :: rest) [(1, d.name)] := by
  obtain ⟨c, first, inked⟩ : Inked (d.name ++ '(' :: rest) := (Inked.of_word formed.named formed.word).append _
  have parts : d.head = "public".toList ++ ([' '] ++ ([] ++ ("func".toList ++ ([' '] ++ ([] ++ ([] ++ d.name)))))) :=
    rfl
  rw [parts]
  apply (prefers_anyWord List.mem_cons_self (by decide) _).lead
  apply (prefers_space (Nat.le_refl 1) rfl (by decide)).lead
  apply (no_modifier rfl).lead
  apply ((prefers_text _ _).first _).lead
  apply (prefers_space (Nat.le_refl 1) first inked).lead
  apply (no_angle formed.named formed.word rest).lead
  apply (no_receiver formed.word rest).lead
  exact prefers_name_before formed.named formed.word rfl (by decide)

/-! The block that is cut. -/

section Block

variable {file : File} {m : Found} {front mark marks margin after : List Char}

theorem parametersEnd_eq (formed : d.WellFormed) (before after : List Char) :
    (do
      let opened ← index? ['('] (before ++ (d.text ++ after)) (before ++ d.head).length
      closingParen? (before ++ (d.text ++ after)) opened defaultQuotes) =
      some (before ++ (d.head ++ '(' :: (d.parameters ++ [')']))).length := by
  have opened := index?_single (c := '(') List.not_mem_nil (before ++ d.head)
    (d.parameters ++ ')' :: (d.tail ++ '\x7b' :: (d.body ++ '\x7d' :: after)))
  have closed := closingParen?_balanced formed.parameters (before ++ d.head)
    (d.tail ++ '\x7b' :: (d.body ++ '\x7d' :: after))
  rw [List.append_assoc] at opened closed
  rw [d.text_append]
  simp only [List.nil_append, List.length_nil, Nat.add_zero] at opened
  simp only [Option.bind_eq_bind, opened, Option.bind_some, closed]
  congr 1
  simp only [List.length_append, List.length_cons, List.length_nil]
  omega

theorem bodyBrace?_eq (formed : d.WellFormed) (before after : List Char) :
    bodyBrace? (before ++ (d.text ++ after)) (before ++ (d.head ++ '(' :: (d.parameters ++ [')']))).length
        [['\n'], [';'], ['=']] =
      if '=' ∈ d.tail then none else some (before ++ d.lead).length := by
  have text : before ++ (d.text ++ after) = (before ++ (d.head ++ '(' :: (d.parameters ++ [')']))) ++
      (d.tail ++ '\x7b' :: (d.body ++ '\x7d' :: after)) := by
    rw [d.text_append]
    simp
  rw [text]
  by_cases equals : '=' ∈ d.tail
  · obtain ⟨lead, more, same⟩ := List.append_of_mem equals
    have open_ : '\x7b' ∉ lead := fun member => formed.unbraced (same ▸ List.mem_append_left _ member)
    have none := bodyBrace?_eq_none open_ (by decide : '=' ≠ '\x7b') (by decide : '=' ∈ ['\n', ';', '='])
      (before ++ (d.head ++ '(' :: (d.parameters ++ [')']))) (more ++ '\x7b' :: (d.body ++ '\x7d' :: after))
    rw [if_pos equals, same, List.append_assoc lead]
    exact none
  · have unmarked : ∀ mark ∈ ['\n', ';', '='], mark ∉ d.tail := by
      simp [formed.oneLine, formed.undivided, equals]
    have first := bodyBrace?_first formed.unbraced unmarked (before ++ (d.head ++ '(' :: (d.parameters ++ [')'])))
      (d.body ++ '\x7d' :: after)
    rw [if_neg equals]
    refine first.trans (congrArg some ?_)
    rw [← List.length_append, lead]
    simp

/-- The block of a head that is found is the whole function behind its annotations, unless an equals sign stands in
front of the body. Then there is none. -/
theorem functionBlock?_eq (formed : d.WellFormed) (stands : file.source = front ++ (marks ++ (d.text ++ after)))
    (start : m.start = front.length) (stop : m.stop = (front ++ (marks ++ d.head)).length) :
    functionBlock? file m =
      if '=' ∈ d.tail then none else file.block? (m.get 1) .function (marks ++ d.text) none := by
  have ended := parametersEnd_eq formed (front ++ marks) after
  have body := bodyBrace?_eq formed (front ++ marks) after
  have code := braceBlock?_balanced formed.body front (marks ++ d.lead) after
  have whole : front ++ (marks ++ d.lead ++ '\x7b' :: (d.body ++ '\x7d' :: after)) = file.source := by
    rw [stands, text]
    simp
  rw [whole, ← List.length_append, ← List.append_assoc] at code
  rw [List.append_assoc, ← stands] at ended body
  rw [List.append_assoc, ← stop] at ended
  rw [functionBlock?, ← bind_assoc, ended]
  simp only [Option.bind_eq_bind, Option.bind_some, body, start]
  by_cases equals : '=' ∈ d.tail
  · rw [if_pos equals, if_pos equals, Option.bind_none]
  · rw [if_neg equals, if_neg equals, Option.bind_some, code]
    simp only [Option.bind_some, text, List.append_assoc]

theorem trimmed_text (annotated : (Pattern.repeated marker).Takes marks) : Trimmed (marks ++ d.text) where
  first := by
    obtain ⟨annotations, rfl, each⟩ := annotated
    intro c first
    cases annotations with
    | nil =>
      obtain rfl : 'p' = c := Option.some.inj first
      decide
    | cons part more =>
      have sign := (marker_isPart (each part List.mem_cons_self)).head (more.flatten ++ d.text)
      rw [List.flatten_cons, List.append_assoc, sign] at first
      obtain rfl : '@' = c := Option.some.inj first
      decide
  last := by
    intro c last
    have brace : (marks ++ d.text).getLast? = some '\x7d' := by
      rw [text, ← List.cons_append, ← List.append_assoc, ← List.append_assoc, List.getLast?_concat]
    obtain rfl : '\x7d' = c := Option.some.inj (brace.symm.trans last)
    decide

theorem block?_text {gap : List Char} (blank : ∀ c ∈ gap, isBlank c = true)
    (annotated : (Pattern.repeated marker).Takes marks) (short : (lines (marks ++ d.text)).length ≤ 40) :
    file.block? d.name .function (gap ++ (marks ++ d.text)) none = some (d.block file marks) := by
  have limited : (BlockKind.function, 40) ∈ Block.ceilings := by decide
  have nonempty : marks ++ d.text ≠ [] := List.append_ne_nil_of_right_ne_nil _ (List.cons_ne_nil _ _)
  rw [File.block?, Block.ofCode?_gap blank, Block.ofCode?_trimmed nonempty (trimmed_text annotated) limited short]
  rfl

end Block

end Function

/-- Of a function, a head is found that has its margin, annotations and name. -/
structure IsHead (d : Function) (before margin marks : List Char) (m : Found) : Prop where
  indented : indent.Takes margin
  annotated : (Pattern.repeated marker).Takes marks
  start : m.start = before.length
  stop : m.stop = (before ++ (margin ++ (marks ++ d.head))).length
  name : m.get 1 = d.name

section Head

variable {d : Function} {above margin after : List Char}

theorem blank_of_indent (indented : indent.Takes margin) : ∀ c ∈ margin, isBlank c = true := by
  intro c member
  rcases Bool.or_eq_true_iff.1 (indented.2 c member) with space | tab
  · rw [beq_iff_eq.1 space]
    decide
  · rw [beq_iff_eq.1 tab]
    decide

theorem exists_head_of_clear (formed : d.WellFormed) (start : StartsLine (lastOr above none))
    (indented : indent.Takes margin) (clear : Clear functionHead above (margin ++ (d.text ++ after))) :
    ∃ m ∈ functionHead.findAll (above ++ (margin ++ (d.text ++ after))), IsHead d above margin [] m := by
  obtain ⟨rest, text⟩ : ∃ rest, d.text ++ after = d.head ++ '(' :: rest := ⟨_, d.text_append after⟩
  have unannotated : ¬ ['@'] <+: d.head ++ '(' :: rest := by
    intro sign
    exact absurd (List.cons_prefix_cons.1 sign).1 (by decide)
  have preferred : (Pattern.both indent (.both (.repeated marker) signature)).Prefers (margin ++ ([] ++ d.head))
      ('(' :: rest) [(1, d.name)] := by
    apply (prefers_run_before indented.2 (Nat.zero_le _) rfl (by decide)).lead
    apply (prefers_no_more (mt Starts.opening unannotated)).lead
    exact Function.head_takes formed _
  have matched (limit : Nat) :
      matchAt? functionHead limit ⟨above.length, lastOr above none, margin ++ (d.text ++ after), []⟩ =
        some ⟨above.length, above.length + (margin ++ ([] ++ d.head)).length, [(1, d.name)]⟩ := by
    have found := matchAt?_of_prefers preferred limit above.length (lastOr above none)
    rw [← matchAt?_startsLine start, List.append_assoc, List.nil_append, ← text] at found
    exact found
  have nonempty : margin ++ (d.text ++ after) ≠ [] := List.append_ne_nil_of_right_ne_nil _ (List.cons_ne_nil _ _)
  have found := ((mem_findAll_iff_of_matchAt? nonempty matched clear _).2 rfl).1
  exact ⟨_, found, indented, ⟨[], rfl, by simp⟩, rfl, by simp, rfl⟩

theorem isHead_of_mem (formed : d.WellFormed) (start : StartsLine (lastOr above none)) (indented : indent.Takes margin)
    (named : ¬ EndsUnnamed (above ++ margin)) {m : Found}
    (member : m ∈ functionHead.findAll (above ++ (margin ++ (d.text ++ after)))) (before : m.start < above.length)
    (behind : above.length < m.stop) :
    ∃ front gap marks, above ++ margin = front ++ (gap ++ marks) ∧ IsHead d front gap marks m := by
  obtain ⟨front, text, same, _, matched⟩ := exists_place_of_mem_findAll member
  obtain ⟨finish, run, rfl⟩ := Option.map_eq_some_iff.1 matched
  dsimp only at before behind
  obtain ⟨rest, rfl, ahead⟩ : ∃ rest, above = front ++ rest ∧ text = rest ++ (margin ++ (d.text ++ after)) := by
    rcases List.append_eq_append_iff.1 same with ⟨more, rfl, _⟩ | ⟨more, rfl, later⟩
    · rw [List.length_append] at before
      omega
    · exact ⟨more, rfl, later⟩
  obtain ⟨lead, c, rfl⟩ : ∃ lead c, rest = lead ++ [c] := by
    rcases List.eq_nil_or_concat' rest with rfl | split
    · rw [List.append_nil] at before
      omega
    · exact split
  obtain rfl : c = '\n' := by
    rw [lastOr_append, lastOr_append] at start
    exact start c rfl
  have complete (first : StartsLine (lastOr front none)) : ¬ unnamed.Takes (lead ++ '\n' :: margin) :=
    fun takes => named ⟨front, lead ++ '\n' :: margin, by simp, first, takes⟩
  rw [List.append_assoc, List.singleton_append] at ahead
  have beyond : front.length + lead.length < finish.offset := by
    simp only [List.length_append, List.length_singleton] at behind
    omega
  obtain ⟨_, gap, marks, kept, split, indented', annotated, run⟩ :=
    exists_signature run ahead (blank_of_indent indented) rfl beyond complete
  obtain ⟨rest, text⟩ : ∃ rest, d.text ++ after = d.head ++ '(' :: rest := ⟨_, d.text_append after⟩
  rw [text] at run
  have preferred := Function.head_takes formed rest
  obtain rfl := Option.some.inj ((preferred _ (Place.behind _ (gap ++ marks) _ kept) some _ rfl rfl).symm.trans run)
  refine ⟨front, gap, marks, by rw [← split]; simp, indented', annotated, rfl, ?_, rfl⟩
  simp only [Place.behind, List.length_append]
  omega

/-- Unless a head without a name ends in front of it, a function has its head found wherever it starts a line. -/
theorem exists_head (formed : d.WellFormed) (start : StartsLine (lastOr above none)) (indented : indent.Takes margin)
    (named : ¬ EndsUnnamed (above ++ margin)) (after : List Char) :
    ∃ front gap marks, above ++ margin = front ++ (gap ++ marks) ∧
      ∃ m ∈ functionHead.findAll (above ++ (margin ++ (d.text ++ after))), IsHead d front gap marks m := by
  by_cases clear : Clear functionHead above (margin ++ (d.text ++ after))
  · obtain ⟨m, member, head⟩ := exists_head_of_clear formed start indented clear
    exact ⟨above, margin, [], by rw [List.append_nil], m, member, head⟩
  · simp only [Clear, not_forall, Nat.not_le] at clear
    obtain ⟨m, member, before, behind⟩ := clear
    obtain ⟨front, gap, marks, same, head⟩ := isHead_of_mem formed start indented named member before behind
    exact ⟨front, gap, marks, same, m, member, head⟩

end Head

/-- Wherever a function starts a line, its head is found, with its margin and annotations, unless a head without a name
ends there. Within the lines that a block may have, the block made of it goes from the annotations through the body
exactly when no equals sign stands between the parameters and the body. -/
theorem function_found_iff {d : Function} (formed : d.WellFormed) {file : File} {above margin after : List Char}
    (stands : file.source = above ++ (margin ++ (d.text ++ after))) (start : StartsLine (lastOr above none))
    (indented : ∀ c ∈ margin, c = ' ' ∨ c = '\t') (named : ¬ EndsUnnamed (above ++ margin)) :
    ∃ front gap marks m, above ++ margin = front ++ (gap ++ marks) ∧ m ∈ functionHead.findAll file.source ∧
      IsHead d front gap marks m ∧
      ((lines (marks ++ d.text)).length ≤ 40 →
        (functionBlock? file m = some (d.block file marks) ↔ '=' ∉ d.tail) ∧
        ('=' ∉ d.tail → d.block file marks ∈ blocks file)) := by
  have takes : indent.Takes margin := ⟨Nat.zero_le _, by simpa using indented⟩
  obtain ⟨front, gap, marks, same, m, member, head⟩ := exists_head formed start takes named after
  refine ⟨front, gap, marks, m, same, stands ▸ member, head, fun short => ?_⟩
  have stands' : file.source = front ++ ((gap ++ marks) ++ (d.text ++ after)) := by
    rw [stands, ← List.append_assoc, same, List.append_assoc]
  have stop : m.stop = (front ++ ((gap ++ marks) ++ d.head)).length := by
    rw [head.stop, List.append_assoc gap]
  have block := Function.functionBlock?_eq formed stands' head.start stop
  rw [head.name, List.append_assoc, Function.block?_text (blank_of_indent head.indented) head.annotated short] at block
  have made : functionBlock? file m = some (d.block file marks) ↔ '=' ∉ d.tail := by
    rw [block]
    by_cases equals : '=' ∈ d.tail
    · simp [equals]
    · simp [equals]
  exact ⟨made, fun absent => List.mem_append_left _ (List.mem_filterMap.2 ⟨m, stands ▸ member, made.2 absent⟩)⟩

def draw : Function where
  name := "draw".toList
  parameters := "on canvas: Canvas, at place: (x: Int, y: Int) = (0, 0)".toList
  tail := " throws -> Bool where Canvas: Surface ".toList
  body := "\n        if place.x < 0 \x7b return false \x7d\n        return canvas.add(\"\x7d\")\n    ".toList

theorem wellFormed_draw : draw.WellFormed where
  named := by decide
  word := List.all_eq_true.1 (by decide)
  parameters := by decide
  oneLine := by decide
  unbraced := by decide
  undivided := by decide
  body := by decide

def aboveDraw : List Char := "struct Box \x7b\n    @discardableResult\n".toList

def shapes : File := ⟨"Box.swift", aboveDraw ++ ("    ".toList ++ (draw.text ++ "\n\x7d\n".toList)), "swift"⟩

theorem annotated_method_found :
    draw.WellFormed ∧ StartsLine (lastOr aboveDraw none) ∧ (∀ c ∈ "    ".toList, c = ' ' ∨ c = '\t') ∧
      ¬ EndsUnnamed (aboveDraw ++ "    ".toList) ∧ '=' ∉ draw.tail ∧
      ∃ marks, marks <:+ aboveDraw ++ "    ".toList ∧ draw.block shapes marks ∈ blocks shapes := by
  have start : StartsLine (lastOr aboveDraw none) := by
    intro c last
    exact (Option.some.inj last).symm
  have spaces : ∀ c ∈ "    ".toList, c = ' ' ∨ c = '\t' := by decide
  have named : ¬ EndsUnnamed (aboveDraw ++ "    ".toList) := by
    intro ends
    exact absurd ends.fun_isInfix (by decide)
  have absent : '=' ∉ draw.tail := by decide
  have stands : shapes.source = aboveDraw ++ ("    ".toList ++ (draw.text ++ "\n\x7d\n".toList)) := rfl
  obtain ⟨front, gap, marks, _, same, _, _, found⟩ := function_found_iff wellFormed_draw stands start spaces named
  have within : marks <:+ aboveDraw ++ "    ".toList := ⟨front ++ gap, by rw [same, List.append_assoc]⟩
  have short : (lines (marks ++ draw.text)).length ≤ 40 := by
    have few := within.sublist.count_le '\n'
    have total : (aboveDraw ++ "    ".toList).count '\n' + draw.text.count '\n' < 40 := by
      decide +kernel
    rw [length_lines, countLines, List.count_append]
    omega
  exact ⟨wellFormed_draw, start, spaces, named, absent, marks, within, (found short).2 absent⟩

def total : Function where
  name := "total".toList
  parameters := []
  tail := " -> Int where Element == Int ".toList
  body := "\n    return reduce(0, +)\n".toList

/-- A requirement that two types are the same hides the body of a function. -/
theorem same_type_missed :
    total.WellFormed ∧ (lines total.text).length = 3 ∧ blocks ⟨"total.swift", total.text, "swift"⟩ = [] := by
  have formed : total.WellFormed :=
    { named := by decide
      word := List.all_eq_true.1 (by decide)
      parameters := .nil
      oneLine := by decide
      unbraced := by decide
      undivided := by decide
      body := by decide }
  exact ⟨formed, by decide, by decide +kernel⟩

end CodeDeck.Extract.Visibility
