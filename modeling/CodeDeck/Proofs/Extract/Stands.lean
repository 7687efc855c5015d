import CodeDeck.Proofs.Extract.Declaration
import CodeDeck.Proofs.Extract.Shape

/-! A declaration at its place in a source. What follows can tell where the declaration ends. -/

namespace CodeDeck.Extract.Curly

open CodeDeck.Text CodeDeck.Pattern CodeDeck.Scan

namespace Shape

def headWords : List String :=
  ["default", "async", "function", "const", "declare", "type", "interface", "abstract", "class"]

/-- Nothing in the declaration reads like the head of another one. -/
def Alone (d : Shape) : Prop := ∀ i < d.text.length, 0 < i → ¬ Exports headWords (d.text.drop i)

instance : DecidablePred Alone := fun d =>
  inferInstanceAs (Decidable (∀ i < d.text.length, 0 < i → ¬ Exports headWords (d.text.drop i)))

/-- In the type parameters no parenthesis opens right behind an angle bracket that closes. -/
def TypesUncalled : Shape → Prop
  | function _ types _ _ _ => Uncalled types
  | _ => True

instance : (d : Shape) → Decidable d.TypesUncalled
  | function _ types _ _ _ => inferInstanceAs (Decidable (Uncalled types))
  | arrow .. | typeAlias .. | interface .. | concept .. => .isTrue trivial

def Legible (d : Shape) : Prop := d.Alone ∧ d.TypesUncalled

instance : DecidablePred Legible := fun d => inferInstanceAs (Decidable (d.Alone ∧ d.TypesUncalled))

/-- The blanks behind the declaration and the text behind these tell that it ends: a function without body ends with a
semicolon. A binding has a body in braces and no arrow but its own, or else an empty line follows, in front of the next
declaration or behind a semicolon. An alias has a brace or a semicolon, or else an empty line follows, and neither of
both later on. -/
def Told : Shape → (gap later : List Char) → Prop
  | function _ _ _ _ ending, _, _ => ending ≠ .newline
  | arrow front inputs body, gap, _ =>
    Braced body 0 ∧ ¬ "=>".toList <:+: inputs ∨ "\n\n".toList <:+ gap ∨
      (arrow front inputs body).text.getLast? = some ';' ∧ "\n\n".toList <+: gap
  | typeAlias text, gap, later =>
    '\x7b' ∈ text.dropWhile (· ≠ '=') ∨ ';' ∈ text ∨ "\n\n".toList <:+: gap ∧ ';' ∉ later ∧ '\x7b' ∉ later
  | interface .., _, _ | concept .., _, _ => True

instance : (d : Shape) → (gap later : List Char) → Decidable (d.Told gap later)
  | function _ _ _ _ ending, _, _ => inferInstanceAs (Decidable (ending ≠ .newline))
  | arrow front inputs body, gap, _ => inferInstanceAs (Decidable
    (Braced body 0 ∧ ¬ "=>".toList <:+: inputs ∨ "\n\n".toList <:+ gap ∨
      (arrow front inputs body).text.getLast? = some ';' ∧ "\n\n".toList <+: gap))
  | typeAlias text, gap, later => inferInstanceAs (Decidable
    ('\x7b' ∈ text.dropWhile (· ≠ '=') ∨ ';' ∈ text ∨ "\n\n".toList <:+: gap ∧ ';' ∉ later ∧ '\x7b' ∉ later))
  | interface .., _, _ | concept .., _, _ => .isTrue trivial

end Shape

/-- The declaration stands in the source, with a gap behind it and the rest of the source behind the gap. -/
structure Stands (source before : List Char) (d : Shape) (gap later : List Char) : Prop where
  same : source = before ++ (d.text ++ (gap ++ later))
  bare : Bare d.text
  formed : d.WellFormed
  legible : d.Legible
  blank : ∀ c ∈ gap, isBlank c = true
  next : later = [] ∨ gap ≠ [] ∧ "export ".toList <+: later ∧ d.Told gap later

/-- The code starts with the declaration and ends in front of the next one. -/
def IsOwn (d : Shape) (gap later code : List Char) : Prop :=
  ∃ n, code = (d.text ++ (gap ++ later)).take n ∧ (n ≤ d.text.length + gap.length ∨ later = [])

section Own

variable {source before gap later code : List Char} {d : Shape}

theorem Stands.drop (stands : Stands source before d gap later) :
    source.drop before.length = d.text ++ (gap ++ later) := by
  rw [stands.same, List.drop_left]

theorem Shape.WellFormed.head? (formed : d.WellFormed) : d.text.head? = some 'e' := by
  obtain ⟨rest, same⟩ := formed.exported
  rw [← same]
  rfl

theorem IsOwn.starts (stands : Stands source before d gap later) (own : IsOwn d gap later code) :
    trim code <+: d.text := by
  obtain ⟨n, rfl, bound⟩ := own
  have start : (d.text ++ (gap ++ later)).take n <+: d.text ++ gap := by
    rcases bound with short | rfl
    · rw [← List.append_assoc, List.take_append_of_le_length (by rw [List.length_append]; exact short)]
      exact List.take_prefix ..
    · rw [List.append_nil]
      exact List.take_prefix ..
  generalize (d.text ++ (gap ++ later)).take n = code at start
  have first : trimStart code = code := by
    apply trimStart_of_inked
    intro c here
    obtain ⟨rest, same⟩ := start
    have shown : (code ++ rest).head? = some c := by rw [List.head?_append, here]; rfl
    rw [same, List.head?_append, stands.formed.head?] at shown
    obtain rfl : 'e' = c := Option.some.inj shown
    decide
  rw [trim, first]
  rcases List.prefix_or_prefix_of_prefix start (List.prefix_append d.text gap) with within | ⟨more, rfl⟩
  · exact (trimEnd_isPrefix code).trans within
  · have blank : ∀ c ∈ more, isBlank c = true := fun c member =>
      stands.blank c (((List.prefix_append_right_inj d.text).1 start).subset member)
    rw [trimEnd_gap blank]
    exact trimEnd_isPrefix ..

/-- A scan that stops within the declaration cuts a text of its own. -/
theorem Stands.braceBlock?_own (stands : Stands source before d gap later) {scanFrom stop : Nat}
    (ends : braceEnd defaultQuotes .code 0 scanFrom (source.drop scanFrom) = some stop)
    (within : stop ≤ before.length + d.text.length) :
    ∃ code, braceBlock? source before.length scanFrom defaultQuotes = some code ∧ IsOwn d gap later code := by
  refine ⟨slice source before.length stop, by rw [braceBlock?, ends]; rfl, stop - before.length, ?_, ?_⟩
  · rw [slice, stands.drop]
  · exact .inl (by omega)

theorem Stands.braceBlock?_unit (stands : Stands source before d gap later) {a b : List Char}
    (opens : d.text = a ++ '\x7b' :: b) {scanFrom : Nat} (here : scanFrom = before.length + a.length) :
    ∃ code, braceBlock? source before.length scanFrom defaultQuotes = some code ∧ IsOwn d gap later code := by
  obtain ⟨stop, ends, bound⟩ := braceEnd_unit stands.formed.balanced stands.bare opens scanFrom (gap ++ later)
  have reached : source.drop scanFrom = '\x7b' :: (b ++ (gap ++ later)) := by
    rw [here, ← List.drop_drop, stands.drop, opens, List.append_assoc, List.drop_left]
    rfl
  apply stands.braceBlock?_own (by rw [reached]; exact ends)
  rw [opens, List.length_append, List.length_cons]
  omega

theorem IsOwn.code_starts {file : File} {name : List Char} {kind : BlockKind} {b : Block}
    (stands : Stands source before d gap later) (own : IsOwn d gap later code) {doc : Option (List Char)}
    (made : file.block? name kind code doc = some b) : b.code.toList <+: d.text := by
  have cut : b.code = String.ofList (trim code) := (Block.ofCode?_fields made).2.2.2.1
  rw [cut, String.toList_ofList]
  exact own.starts stands

theorem Stands.blank_behind (stands : Stands source before d gap later) :
    ∀ c, (gap ++ later).head? = some c → isBlank c = true := by
  intro c first
  cases gap with
  | cons d more => exact Option.some.inj first ▸ stands.blank d List.mem_cons_self
  | nil =>
    rcases stands.next with rfl | ⟨some, _⟩
    · contradiction
    · exact absurd rfl some

theorem Stands.keyword (stands : Stands source before d gap later) :
    ∃ key, keyword? (d.text ++ (gap ++ later)) = some key ∧ d.Keyed key := by
  obtain ⟨key, found, keyed⟩ := stands.formed.keyed
  exact ⟨key, keyword?_append stands.blank_behind found, keyed⟩

end Own

namespace Shape

variable {d : Shape} {key : List Char}

theorem function_of_keyed (keyed : d.Keyed key) (own : "function".toList <+: key) :
    ∃ front types parameters result ending, d = .function front types parameters result ending := by
  cases d with
  | function front types parameters result ending => exact ⟨_, _, _, _, _, rfl⟩
  | arrow => exact absurd (show "function".toList <+: "const".toList from keyed ▸ own) (by decide)
  | typeAlias => exact absurd (show "function".toList <+: "type".toList from keyed ▸ own) (by decide)
  | interface => exact absurd (show "function".toList <+: "interface".toList from keyed ▸ own) (by decide)
  | concept => exact absurd (show "function".toList <+: "class".toList from keyed ▸ own) (by decide)

theorem arrow_of_keyed (keyed : d.Keyed "const".toList) : ∃ front inputs body, d = .arrow front inputs body := by
  cases d with
  | arrow front inputs body => exact ⟨_, _, _, rfl⟩
  | function => exact absurd (show "function".toList <+: "const".toList from keyed) (by decide)
  | typeAlias => exact absurd (show "const".toList = "type".toList from keyed) (by decide)
  | interface => exact absurd (show "const".toList = "interface".toList from keyed) (by decide)
  | concept => exact absurd (show "const".toList = "class".toList from keyed) (by decide)

theorem concept_of_keyed (keyed : d.Keyed "class".toList) : ∃ heading inside, d = .concept heading inside := by
  cases d with
  | concept heading inside => exact ⟨_, _, rfl⟩
  | function => exact absurd (show "function".toList <+: "class".toList from keyed) (by decide)
  | arrow => exact absurd (show "class".toList = "const".toList from keyed) (by decide)
  | typeAlias => exact absurd (show "class".toList = "type".toList from keyed) (by decide)
  | interface => exact absurd (show "class".toList = "interface".toList from keyed) (by decide)

end Shape

def Spares (p : Pattern) (block? : File → Found → Option Block) : Prop :=
  ∀ (file : File) (before gap later : List Char) (d : Shape) (limit : Nat) (previous : Option Char) (m : Found)
    (b : Block), Stands file.source before d gap later →
    matchAt? p limit ⟨before.length, previous, d.text ++ (gap ++ later), []⟩ = some m → block? file m = some b →
      b.code.toList <+: d.text

end CodeDeck.Extract.Curly
