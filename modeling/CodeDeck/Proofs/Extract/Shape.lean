import CodeDeck.Proofs.Extract.Arrow
import CodeDeck.Proofs.Extract.Heads
import CodeDeck.Proofs.Scan.Annotated
import CodeDeck.Proofs.Scan.Bare

/-! Exported declarations, taken apart as far as the scans for their ends go. -/

namespace CodeDeck.Extract.Curly

open CodeDeck.Text CodeDeck.Pattern CodeDeck.Scan

inductive Ending where
  | body (inside : List Char)
  | semicolon
  | newline
  deriving DecidableEq, Repr

def Ending.text : Ending → List Char
  | body inside => '\x7b' :: (inside ++ ['\x7d'])
  | semicolon => [';']
  | newline => []

inductive Shape where
  /-- The front goes up to the type parameters and their brackets. -/
  | function (front types parameters : List Char) (result : List TypeToken) (ending : Ending)
  /-- The inputs stand between the equals sign and the arrow. -/
  | arrow (front inputs body : List Char)
  | typeAlias (text : List Char)
  | interface (text : List Char)
  /-- The heading of a class goes up to its body. -/
  | concept (heading : List TypeToken) (inside : List Char)
  deriving DecidableEq, Repr

def Closes (opening closing : Char) : List Char → Prop
  | [] => True
  | c :: rest => (c = opening → closing ∈ rest) ∧ Closes opening closing rest

/-- The last token leads to no object type. -/
def Settled (ts : List TypeToken) : Prop := ∀ last ∈ lastToken? ts, last.leads = false

instance : DecidablePred Settled := fun ts => inferInstanceAs (Decidable (∀ last ∈ lastToken? ts, last.leads = false))

def Uncalled : List Char → Prop
  | [] => True
  | c :: rest => (c = '>' → (trimStart rest).head? ≠ some '(') ∧ Uncalled rest

instance Closes.decidable (opening closing : Char) : (s : List Char) → Decidable (Closes opening closing s)
  | [] => .isTrue trivial
  | c :: rest =>
    have := Closes.decidable opening closing rest
    inferInstanceAs (Decidable ((c = opening → closing ∈ rest) ∧ Closes opening closing rest))

instance Uncalled.decidable : (s : List Char) → Decidable (Uncalled s)
  | [] => .isTrue trivial
  | c :: rest =>
    have := Uncalled.decidable rest
    inferInstanceAs (Decidable ((c = '>' → (trimStart rest).head? ≠ some '(') ∧ Uncalled rest))

theorem Closes.of_suffix {opening closing : Char} {before s : List Char}
    (closes : Closes opening closing (before ++ s)) : Closes opening closing s := by
  induction before with
  | nil => exact closes
  | cons c more ih => exact ih closes.2

theorem Uncalled.not_called {before after : List Char} (uncalled : Uncalled (before ++ '>' :: after)) :
    (trimStart after).head? ≠ some '(' := by
  induction before with
  | nil => exact uncalled.1 rfl
  | cons c more ih => exact ih uncalled.2

namespace Shape

def text : Shape → List Char
  | function front types parameters result ending =>
    front ++ (types ++ '(' :: (parameters ++ ')' :: (typeText result ++ ending.text)))
  | arrow front inputs body => front ++ '=' :: (inputs ++ '=' :: '>' :: body)
  | typeAlias text | interface text => text
  | concept heading inside => typeText heading ++ '\x7b' :: (inside ++ ['\x7d'])

def Keyed : Shape → List Char → Prop
  | function .., key => "function".toList <+: key
  | arrow .., key => key = "const".toList
  | typeAlias .., key => key = "type".toList
  | interface .., key => key = "interface".toList
  | concept .., key => key = "class".toList

instance : (d : Shape) → (key : List Char) → Decidable (d.Keyed key)
  | function .., key => inferInstanceAs (Decidable ("function".toList <+: key))
  | arrow .., key => inferInstanceAs (Decidable (key = "const".toList))
  | typeAlias .., key => inferInstanceAs (Decidable (key = "type".toList))
  | interface .., key => inferInstanceAs (Decidable (key = "interface".toList))
  | concept .., key => inferInstanceAs (Decidable (key = "class".toList))

/-- The parts are what their names say, and brackets are closed where they open. -/
inductive Complete : Shape → Prop
  | function {front types parameters : List Char} {result : List TypeToken} {ending : Ending}
      (plain : ∀ c ∈ front, ¬ (c = '(' ∨ c = '<'))
      (angle : types = [] ∨ ∃ inside gap, types = '<' :: (inside ++ '>' :: gap) ∧ ∀ c ∈ gap, isBlank c = true)
      (balanced : Balanced parens parameters) (formed : ∀ t ∈ result, t.WellFormed)
      (settled : ∀ inside, ending = .body inside → Settled result) :
      Complete (function front types parameters result ending)
  | arrow {front inputs body : List Char} (bound : '=' ∉ front) (round : Closes '(' ')' inputs)
      (angle : Closes '<' '>' inputs) : Complete (arrow front inputs body)
  | typed {front type inputs body : List Char} (bound : '=' ∉ front) :
      Complete (arrow (front ++ '=' :: '>' :: type) inputs body)
  | typeAlias {text : List Char} (bound : '=' ∈ text) : Complete (typeAlias text)
  | interface {text : List Char} (braced : '\x7b' ∈ text) : Complete (interface text)
  | concept {heading : List TypeToken} {inside : List Char} (formed : ∀ t ∈ heading, t.WellFormed)
      (settled : Settled heading) : Complete (concept heading inside)

/-- An exported declaration with balanced braces, of which no other line starts with `export`. -/
structure Standalone (d : Shape) : Prop where
  exported : "export ".toList <+: d.text
  keyed : ∃ key ∈ keyword? d.text, d.Keyed key
  balanced : Balanced braces d.text
  single : ¬ "\nexport ".toList <:+: d.text

theorem standalone_iff (d : Shape) :
    d.Standalone ↔ "export ".toList <+: d.text ∧ (∃ key ∈ keyword? d.text, d.Keyed key) ∧ Balanced braces d.text ∧
      ¬ "\nexport ".toList <:+: d.text :=
  ⟨fun ⟨exported, keyed, balanced, single⟩ => ⟨exported, keyed, balanced, single⟩,
    fun ⟨exported, keyed, balanced, single⟩ => ⟨exported, keyed, balanced, single⟩⟩

instance : DecidablePred Standalone := fun d => decidable_of_iff _ (standalone_iff d).symm

structure WellFormed (d : Shape) : Prop extends Standalone d where
  complete : d.Complete

end Shape

/-! How far the head of a function goes. -/

theorem angle_eq {inside inside' gap gap' more rest : List Char} (free : '>' ∉ inside')
    (blank : ∀ c ∈ gap, isBlank c = true) (blank' : ∀ c ∈ gap', isBlank c = true)
    (uncalled : Uncalled (inside ++ '>' :: gap))
    (same : inside' ++ '>' :: (gap' ++ '(' :: rest) = inside ++ '>' :: (gap ++ '(' :: more)) :
    inside' = inside ∧ gap' = gap := by
  have unopened {s : List Char} (blank : ∀ c ∈ s, isBlank c = true) : '(' ∉ s :=
    fun member => absurd (blank '(' member) (by decide)
  have closed (last : gap' ++ '(' :: rest = gap ++ '(' :: more) : gap' = gap :=
    (append_separator_inj (unopened blank') (unopened blank) last).1
  rcases List.append_eq_append_iff.1 same with ⟨between, rfl, later⟩ | ⟨between, rfl, later⟩
  · cases between with
    | nil => exact ⟨(List.append_nil _).symm, closed (List.cons.inj later).2⟩
    | cons c inner =>
      obtain ⟨rfl, next⟩ := List.cons.inj later
      have inked : allBlank (inner ++ '>' :: gap) = false := by
        simp [allBlank, (by decide : isBlank '>' = false)]
      have called : (trimStart (inner ++ '>' :: gap)).head? = some '(' := by
        rw [← head?_trimStart_append inked ('(' :: more), List.append_assoc]
        show (trimStart (inner ++ '>' :: (gap ++ '(' :: more))).head? = _
        have paren : trimStart (gap' ++ '(' :: rest) = '(' :: rest :=
          trimStart_gap (w := ['(']) blank' (by decide) rest
        rw [← show gap' ++ '(' :: rest = inner ++ '>' :: (gap ++ '(' :: more) from next, paren]
        rfl
      rw [List.append_assoc] at uncalled
      exact absurd called uncalled.not_called
  · cases between with
    | nil => exact ⟨List.append_nil _, closed (List.cons.inj later).2.symm⟩
    | cons c inner =>
      obtain ⟨rfl, _⟩ := List.cons.inj later
      exact absurd (List.mem_append_right inside List.mem_cons_self) free

theorem functionHead_eq {front types more taken rest : List Char} (plain : ∀ c ∈ front, ¬ (c = '(' ∨ c = '<'))
    (angle : types = [] ∨ ∃ inside gap, types = '<' :: (inside ++ '>' :: gap) ∧ ∀ c ∈ gap, isBlank c = true)
    (uncalled : Uncalled types) (takes : functionHead.Takes taken)
    (same : taken ++ rest = front ++ (types ++ '(' :: more)) : taken = front ++ (types ++ ['(']) := by
  obtain ⟨front', angle', gap', rfl, plain', enclosed, blank'⟩ := functionHead_parts takes
  rcases enclosed with rfl | ⟨inside', rfl, free⟩
  · have first : ∀ c ∈ front' ++ gap', ¬ (c = '(' ∨ c = '<') := by
      apply List.forall_mem_append.2 ⟨plain', _⟩
      rintro c member (rfl | rfl) <;> exact absurd (blank' _ member) (by decide)
    have stands : (front' ++ gap') ++ '(' :: rest = front ++ (types ++ '(' :: more) := by
      simpa only [List.nil_append, List.append_assoc, List.singleton_append] using same
    rcases angle with rfl | ⟨inside, gap, rfl, _⟩
    · obtain ⟨whole, _, _⟩ := append_cons_inj first plain (.inl rfl) (.inl rfl) stands
      rw [← whole]
      simp
    · obtain ⟨_, sign, _⟩ := append_cons_inj first plain (.inl rfl) (.inr rfl) stands
      exact absurd sign (by decide)
  · have stands : front' ++ '<' :: (inside' ++ '>' :: (gap' ++ '(' :: rest)) = front ++ (types ++ '(' :: more) := by
      simpa only [List.append_assoc, List.cons_append, List.nil_append] using same
    rcases angle with rfl | ⟨inside, gap, rfl, blank⟩
    · obtain ⟨_, sign, _⟩ := append_cons_inj plain' plain (.inr rfl) (.inl rfl) stands
      exact absurd sign (by decide)
    · obtain ⟨rfl, _, behind⟩ := append_cons_inj plain' plain (.inr rfl) (.inr rfl) stands
      obtain ⟨rfl, rfl⟩ := angle_eq free blank blank' uncalled.2
        (behind.trans (List.append_assoc inside ('>' :: gap) ('(' :: more)))
      simp

/-! How far the head of a binding goes. -/

section Inputs

variable {inputs part inside behind rest : List Char}

theorem exists_left_of_free (free : '=' ∉ part) (same : part ++ rest = inputs ++ '=' :: behind) :
    ∃ left, inputs = part ++ left ∧ rest = left ++ '=' :: behind := by
  have start : part <+: inputs ++ '=' :: behind := ⟨rest, same⟩
  obtain ⟨left, rfl⟩ := (prefix_or_mem start).resolve_right free
  refine ⟨left, rfl, ?_⟩
  rw [List.append_assoc] at same
  exact List.append_cancel_left same

theorem exists_left_of_closes {opening closing : Char} (closes : Closes opening closing inputs)
    (other : opening ≠ '=') (free : closing ∉ inside)
    (same : opening :: (inside ++ closing :: rest) = inputs ++ '=' :: behind) :
    ∃ left, inputs = opening :: (inside ++ closing :: left) ∧ rest = left ++ '=' :: behind := by
  cases inputs with
  | nil => exact absurd (List.cons.inj same).1 other
  | cons c more =>
    obtain ⟨rfl, next⟩ := List.cons.inj same
    obtain ⟨lead, left, rfl, first⟩ := List.eq_append_cons_of_mem (closes.1 rfl)
    have closed := next.trans (List.append_assoc lead (closing :: left) ('=' :: behind))
    obtain ⟨rfl, later⟩ := append_separator_inj free first closed
    exact ⟨left, rfl, later⟩

theorem exists_left_of_parts {skip angle input note : List Char} (parts : ArrowParts skip angle input note)
    (round : Closes '(' ')' inputs) (angled : Closes '<' '>' inputs)
    (same : skip ++ (angle ++ (input ++ (note ++ rest))) = inputs ++ '=' :: behind) :
    ∃ left, inputs = skip ++ (angle ++ (input ++ (note ++ left))) ∧ rest = left ++ '=' :: behind := by
  have plain : '=' ∉ skip := fun member => parts.skip '=' member (by decide)
  obtain ⟨left, rfl, behindSkip⟩ := exists_left_of_free plain same
  have types : ∃ left', left = angle ++ left' ∧ input ++ (note ++ rest) = left' ++ '=' :: behind := by
    rcases parts.angle with rfl | ⟨inside, gap, rfl, free, blank⟩
    · exact ⟨left, rfl, behindSkip⟩
    · simp only [List.append_assoc, List.cons_append] at behindSkip
      obtain ⟨left', rfl, behindTypes⟩ := exists_left_of_closes angled.of_suffix (by decide) free behindSkip
      obtain ⟨left'', rfl, behindGap⟩ := exists_left_of_free blank behindTypes
      exact ⟨left'', by simp, behindGap⟩
  obtain ⟨left, rfl, behindAngle⟩ := types
  have own : ∃ left', left = input ++ left' ∧ note ++ rest = left' ++ '=' :: behind := by
    rcases parts.input with ⟨inside, rfl, free⟩ | ⟨_, word⟩
    · simp only [List.append_assoc, List.cons_append, List.nil_append] at behindAngle
      obtain ⟨left', rfl, behindParen⟩ :=
        exists_left_of_closes round.of_suffix.of_suffix (by decide) free behindAngle
      exact ⟨left', by simp, behindParen⟩
    · refine exists_left_of_free ?_ behindAngle
      intro member
      exact absurd (word '=' member) (by decide)
  obtain ⟨left, rfl, behindInput⟩ := own
  obtain ⟨left, rfl, arrow⟩ := exists_left_of_free parts.note behindInput
  exact ⟨left, rfl, arrow⟩

end Inputs

section Arrow

variable {front inputs behind taken rest : List Char}

/-- The head of a binding ends with its arrow, or with an earlier one among its inputs. -/
theorem arrowHead_eq (bound : '=' ∉ front) (round : Closes '(' ')' inputs) (angle : Closes '<' '>' inputs)
    (takes : arrowHead.Takes taken)
    (same : taken ++ rest = front ++ '=' :: (inputs ++ '=' :: '>' :: behind)) :
    ∃ used left, inputs = used ++ left ∧ taken = front ++ '=' :: (used ++ ['=', '>']) ∧
      (left = [] ∨ ['=', '>'] <+: left) := by
  obtain ⟨lead, skip, angle', input, note, rfl, free, parts⟩ := arrowHead_parts takes
  simp only [List.append_assoc, List.cons_append, List.nil_append] at same
  obtain ⟨rfl, next⟩ := append_separator_inj free bound same
  obtain ⟨left, rfl, arrow⟩ := exists_left_of_parts parts round angle next
  refine ⟨skip ++ (angle' ++ (input ++ note)), left, by simp, by simp, ?_⟩
  match left, arrow with
  | [], _ => exact .inl rfl
  | [_], arrow => exact absurd (List.cons.inj (List.cons.inj arrow).2).1 (by decide)
  | _ :: _ :: more, arrow =>
    obtain ⟨rfl, tip⟩ := List.cons.inj arrow
    obtain ⟨rfl, _⟩ := List.cons.inj tip
    exact .inr ⟨more, rfl⟩

theorem not_arrowHead_typed (bound : '=' ∉ front) (takes : arrowHead.Takes taken)
    (same : taken ++ rest = front ++ '=' :: '>' :: behind) : False := by
  obtain ⟨lead, skip, angle, input, note, rfl, free, parts⟩ := arrowHead_parts takes
  simp only [List.append_assoc, List.cons_append, List.nil_append] at same
  obtain ⟨rfl, next⟩ := append_separator_inj free bound same
  cases skip with
  | cons c more =>
    obtain rfl : c = '>' := (List.cons.inj next).1
    exact parts.skip '>' List.mem_cons_self (by decide)
  | nil =>
    rcases parts.angle with rfl | ⟨inside, gap, rfl, _⟩
    · rcases parts.input with ⟨inside, rfl, _⟩ | ⟨some, word⟩
      · exact absurd (List.cons.inj next).1 (by decide)
      · obtain ⟨c, more, rfl⟩ := List.exists_cons_of_ne_nil some
        obtain rfl : c = '>' := (List.cons.inj next).1
        exact absurd (word '>' List.mem_cons_self) (by decide)
    · exact absurd (List.cons.inj next).1 (by decide)

end Arrow

end CodeDeck.Extract.Curly
