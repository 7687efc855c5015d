import CodeDeck.Proofs.Extract.Exported
import CodeDeck.Proofs.Pattern.Found

/-! What the head of an exported declaration tells. Its keyword is the first word behind the modifiers, so that only
one of the four heads is found at a declaration. The parts of a head say how far it goes. -/

namespace CodeDeck.Extract.Curly

open CodeDeck.Text CodeDeck.Pattern

/-! Words and the keyword. -/

def words (s : List Char) : List (List Char) := (s.splitOnP isBlank).filter (· ≠ [])

def modifierWords : List String := ["default", "async", "declare", "abstract"]

def isKeyword (w : List Char) : Bool := modifierWords.all fun m => decide (m.toList ≠ w)

/-- Of the words behind the first one, the first that is no modifier. -/
def keyword? (s : List Char) : Option (List Char) := ((words s).drop 1).find? isKeyword

theorem words_nil : words [] = [] := by simp [words]

theorem words_append_blank {c : Char} (blank : isBlank c = true) (s t : List Char) :
    words (s ++ c :: t) = words s ++ words t := by
  rw [words, List.splitOnP_append_cons _ _ blank, List.filter_append]
  rfl

theorem words_cons_blank {c : Char} (blank : isBlank c = true) (s : List Char) : words (c :: s) = words s := by
  have step := words_append_blank blank [] s
  rwa [words_nil, List.nil_append, List.nil_append] at step

theorem words_gap {gap : List Char} (blank : ∀ c ∈ gap, isBlank c = true) (s : List Char) :
    words (gap ++ s) = words s := by
  induction gap with
  | nil => rfl
  | cons c more ih =>
    obtain ⟨first, others⟩ := List.forall_mem_cons.1 blank
    rw [List.cons_append, words_cons_blank first, ih others]

theorem words_of_inked {w : List Char} (inked : ∀ c ∈ w, isBlank c = false) (some : w ≠ []) : words w = [w] := by
  rw [words, List.splitOnP_eq_singleton inked]
  simp [some]

theorem words_first {w gap : List Char} (inked : ∀ c ∈ w, isBlank c = false) (some : w ≠ [])
    (blanks : blanks1.Takes gap) (s : List Char) : words (w ++ (gap ++ s)) = w :: words s := by
  obtain ⟨enough, blank⟩ := blanks
  obtain ⟨c, more, rfl⟩ := List.exists_cons_of_length_pos enough
  obtain ⟨first, others⟩ := List.forall_mem_cons.1 blank
  rw [List.cons_append, words_append_blank first, words_of_inked inked some, words_gap others]
  rfl

theorem exists_words_append {w : List Char} (inked : ∀ c ∈ w, isBlank c = false) (some : w ≠ []) (s : List Char) :
    ∃ more others, words (w ++ s) = (w ++ more) :: others := by
  have front : ∀ c ∈ s.takeWhile (fun c => !isBlank c), isBlank c = false := by
    intro c member
    simpa using List.mem_takeWhile_imp member
  have whole : s = s.takeWhile (fun c => !isBlank c) ++ s.dropWhile (fun c => !isBlank c) :=
    List.takeWhile_append_dropWhile.symm
  have here := words_of_inked (List.forall_mem_append.2 ⟨inked, front⟩) (List.append_ne_nil_of_left_ne_nil some _)
  refine ⟨s.takeWhile fun c => !isBlank c, ?_⟩
  cases behind : s.dropWhile (fun c => !isBlank c) with
  | nil =>
    rw [behind, List.append_nil] at whole
    refine ⟨[], ?_⟩
    conv_lhs => rw [whole]
    exact here
  | cons c rest =>
    have blank : isBlank c = true := by
      have stops := List.head?_dropWhile_not (fun c => !isBlank c) s
      rw [behind] at stops
      simpa using stops
    refine ⟨words rest, ?_⟩
    conv_lhs => rw [whole, behind, ← List.append_assoc, words_append_blank blank, here]
    rfl

theorem keyword?_append {s t w : List Char} (apart : ∀ c, t.head? = some c → isBlank c = true)
    (found : keyword? s = some w) : keyword? (s ++ t) = some w := by
  cases t with
  | nil => rwa [List.append_nil]
  | cons c more =>
    have split : words (s ++ c :: more) = words s ++ words more := words_append_blank (apart c rfl) s more
    cases first : words s with
    | nil =>
      rw [keyword?, first] at found
      contradiction
    | cons v others =>
      rw [keyword?, first, List.drop_one, List.tail_cons] at found
      rw [keyword?, split, first, List.cons_append, List.drop_one, List.tail_cons, List.find?_append, found]
      rfl

/-! The keyword of each head. -/

theorem keyword?_export {gap : List Char} (blanks : blanks1.Takes gap) (s : List Char) :
    keyword? ("export".toList ++ (gap ++ s)) = (words s).find? isKeyword := by
  rw [keyword?, words_first (by decide) (by decide) blanks, List.drop_one, List.tail_cons]

theorem find?_modifier {word_ : String} (listed : word_ ∈ modifierWords) {a : List Char}
    (takes : (optional (.both (word word_) blanks1)).Takes a) (s : List Char) :
    (words (a ++ s)).find? isKeyword = (words s).find? isKeyword := by
  have inked : ∀ m ∈ modifierWords, m.toList ≠ [] ∧ ∀ c ∈ m.toList, isBlank c = false := by decide
  rcases takes with ⟨w, gap, rfl, letters, blanks⟩ | none
  · obtain rfl : w = word_.toList := letters
    have skipped : isKeyword word_.toList = false := by
      rw [isKeyword, List.all_eq_false]
      exact ⟨word_, listed, by simp⟩
    rw [List.append_assoc, words_first (inked word_ listed).2 (inked word_ listed).1 blanks, List.find?_cons, skipped]
  · obtain rfl : a = [] := none
    rfl

theorem find?_keyword {w : List Char} (inked : ∀ c ∈ w, isBlank c = false) (some : w ≠ [])
    (other : ∀ m ∈ modifierWords, ¬ w <+: m.toList) (s : List Char) :
    ∃ key, (words (w ++ s)).find? isKeyword = Option.some key ∧ w <+: key := by
  obtain ⟨more, others, same⟩ := exists_words_append inked some s
  have own : isKeyword (w ++ more) = true := by
    refine List.all_eq_true.2 fun m listed => decide_eq_true ?_
    intro whole
    exact other m listed (whole ▸ List.prefix_append ..)
  exact ⟨w ++ more, by rw [same, List.find?_cons, own], List.prefix_append ..⟩

theorem find?_keyword_blanks {w gap : List Char} (inked : ∀ c ∈ w, isBlank c = false) (some : w ≠ [])
    (own : isKeyword w = true) (blanks : blanks1.Takes gap) (s : List Char) :
    (words (w ++ (gap ++ s))).find? isKeyword = Option.some w := by
  rw [words_first inked some blanks, List.find?_cons, own]

theorem functionHead_keyword {s : List Char} (starts : functionHead.Starts s) :
    ∃ key, keyword? s = some key ∧ "function".toList <+: key := by
  obtain ⟨_, _, rfl, exported, spaced⟩ := starts.both
  obtain rfl := show _ = "export".toList from exported
  obtain ⟨gap, _, rfl, blanks, modified⟩ := spaced.both
  obtain ⟨a, _, rfl, standard, modified'⟩ := modified.both
  obtain ⟨b, _, rfl, waiting, keyed⟩ := modified'.both
  obtain ⟨rest, rfl⟩ := keyed.opening
  rw [keyword?_export blanks, find?_modifier (by decide) standard, find?_modifier (by decide) waiting]
  exact find?_keyword (by decide) (by decide) (by decide) rest

theorem arrowHead_keyword {s : List Char} (starts : arrowHead.Starts s) : keyword? s = some "const".toList := by
  obtain ⟨_, _, rfl, exported, spaced⟩ := starts.both
  obtain rfl := show _ = "export".toList from exported
  obtain ⟨gap, _, rfl, blanks, keyed⟩ := spaced.both
  obtain ⟨_, _, rfl, key, named⟩ := keyed.both
  obtain rfl := show _ = "const".toList from key
  obtain ⟨gap', rest, rfl, blanks', _⟩ := named.both
  rw [keyword?_export blanks]
  exact find?_keyword_blanks (by decide) (by decide) (by decide) blanks' rest

theorem classHead_keyword {s : List Char} (starts : classHead.Starts s) : keyword? s = some "class".toList := by
  obtain ⟨_, _, rfl, exported, spaced⟩ := starts.both
  obtain rfl := show _ = "export".toList from exported
  obtain ⟨gap, _, rfl, blanks, modified⟩ := spaced.both
  obtain ⟨a, _, rfl, standard, modified'⟩ := modified.both
  obtain ⟨b, _, rfl, unfinished, keyed⟩ := modified'.both
  obtain ⟨_, _, rfl, key, named⟩ := keyed.both
  obtain rfl := show _ = "class".toList from key
  obtain ⟨gap', rest, rfl, blanks', _⟩ := named.both
  rw [keyword?_export blanks, find?_modifier (by decide) standard, find?_modifier (by decide) unfinished]
  exact find?_keyword_blanks (by decide) (by decide) (by decide) blanks' rest

theorem typeHead_keyword {place : Place} {limit : Nat} {m : Found} (found : matchAt? typeHead limit place = some m) :
    keyword? place.rest = some (m.get 1) ∧ (m.get 1 = "type".toList ∨ m.get 1 = "interface".toList) := by
  obtain ⟨finish, run, rfl⟩ := Option.map_eq_some_iff.1 found
  obtain ⟨_, s, _, exported, ahead, spaced⟩ := exists_first_of_run? run
  obtain rfl := show _ = "export".toList from exported
  obtain ⟨gap, t, _, blanks, behind, modified⟩ := exists_first_of_run? spaced
  obtain ⟨a, u, kept, ambient, next, keyed⟩ := exists_first_of_run? modified
  have keyed' : run? limit (.keep 1 (anyWord ["type", "interface"])) _
      (fun q => run? limit (.both blanks1 (.keep 2 name)) q some) = some finish := keyed
  obtain ⟨key, v, _, takes, here, named⟩ := exists_kept_of_run? keyed'
  have named' : run? limit blanks1 _ (fun q => run? limit (.keep 2 name) q some) = some finish := named
  obtain ⟨gap', w, enough, blank, later, last⟩ := exists_run_of_run? named'
  have last' : run? limit name _ (fun q => some (q.keep 2 _)) = some finish := last
  obtain ⟨_, _, _, _, _, final⟩ := exists_run_of_run? last'
  obtain rfl := Option.some.inj final
  have text : place.rest = "export".toList ++ (gap ++ (a ++ (key ++ (gap' ++ w)))) := by
    rw [ahead, show s = gap ++ t from behind, show t = a ++ u from next, show u = key ++ v from here,
      show v = gap' ++ w from later]
  refine ⟨?_, takes⟩
  have own : key ≠ [] ∧ (∀ c ∈ key, isBlank c = false) ∧ isKeyword key = true := by
    rcases takes with type | interface
    · obtain rfl : key = "type".toList := type
      decide
    · obtain rfl : key = "interface".toList := interface
      decide
  rw [text, keyword?_export blanks, find?_modifier (by decide) ambient,
    find?_keyword_blanks own.2.1 own.1 own.2.2 ⟨enough, blank⟩]
  rfl

/-! The parts of a head. -/

theorem takes_enclosed {opening closing : Char} {taken : List Char}
    (takes : (enclosed opening closing (except closing)).Takes taken) :
    ∃ inside, taken = opening :: (inside ++ [closing]) ∧ closing ∉ inside := by
  obtain ⟨_, _, rfl, first, inside, _, rfl, ⟨_, free⟩, last⟩ := takes
  obtain rfl := show _ = [opening] from first
  obtain rfl := show _ = [closing] from last
  refine ⟨inside, rfl, fun member => ?_⟩
  exact absurd rfl (bne_iff_ne.1 (free closing member))

/-- The opening parenthesis of a function is the first one, or stands right behind the first angle that closes. -/
theorem functionHead_parts {taken : List Char} (takes : functionHead.Takes taken) :
    ∃ front angle gap, taken = front ++ (angle ++ (gap ++ ['('])) ∧ (∀ c ∈ front, ¬ (c = '(' ∨ c = '<')) ∧
      (angle = [] ∨ ∃ inside, angle = '<' :: (inside ++ ['>']) ∧ '>' ∉ inside) ∧ ∀ c ∈ gap, isBlank c = true := by
  have blank (c : Char) (gap : isBlank c = true) : ¬ (c = '(' ∨ c = '<') := by
    rintro (rfl | rfl) <;> exact absurd gap (by decide)
  have letter (c : Char) (word : isWord c = true) : ¬ (c = '(' ∨ c = '<') := by
    rintro (rfl | rfl) <;> exact absurd word (by decide)
  obtain ⟨front, _, rfl, lead, angle, _, rfl, enclosed, gap, _, rfl, ⟨_, blanks⟩, paren⟩ := takes_split takes 10
  obtain rfl := show _ = ['('] from paren
  refine ⟨front, angle, gap, rfl, ?_, enclosed.symm.imp id takes_enclosed, blanks⟩
  exact forall_of_takes lead ⟨uses_word (by decide), blank, Uses.optional ⟨uses_word (by decide), blank⟩,
    Uses.optional ⟨uses_word (by decide), blank⟩, uses_word (by decide), blank, Uses.optional (uses_word (by decide)),
    blank, letter, blank⟩

structure ArrowParts (skip angle input note : List Char) : Prop where
  skip : ∀ c ∈ skip, c ∉ ['=', '>', '<', '(']
  angle : angle = [] ∨ ∃ inside gap, angle = '<' :: (inside ++ '>' :: gap) ∧ '>' ∉ inside ∧ '=' ∉ gap
  input : (∃ inside, input = '(' :: (inside ++ [')']) ∧ ')' ∉ inside) ∨ input ≠ [] ∧ ∀ c ∈ input, isWord c = true
  note : '=' ∉ note

theorem arrowHead_parts {taken : List Char} (takes : arrowHead.Takes taken) :
    ∃ lead skip angle input note, taken = lead ++ '=' :: (skip ++ (angle ++ (input ++ (note ++ ['=', '>'])))) ∧
      '=' ∉ lead ∧ ArrowParts skip angle input note := by
  have blank (c : Char) (gap : isBlank c = true) : c ∉ ['=', '>', '<', '('] := by
    intro member
    simp only [List.mem_cons, List.not_mem_nil, or_false] at member
    rcases member with rfl | rfl | rfl | rfl <;> exact absurd gap (by decide)
  have blank' (c : Char) (gap : isBlank c = true) : c ≠ '=' := fun same => blank c gap (by simp [same])
  have letter (c : Char) (word : isWord c = true) : c ≠ '=' := by
    rintro rfl
    exact absurd word (by decide)
  have noted : (blanks.both (typeNote.both blanks)).Uses (· ≠ '=') := by
    refine ⟨blank', Uses.optional ⟨uses_word (by decide), ?_⟩, blank'⟩
    intro c inLine
    simp only [exceptInLine, Bool.and_eq_true, bne_iff_ne] at inLine
    exact inLine.1
  obtain ⟨lead, _, rfl, front, _, _, rfl, equals, behind⟩ := takes_split takes 8
  obtain rfl := show _ = "=".toList from equals
  obtain ⟨skip, _, rfl, async, angle, _, rfl, types, input, _, rfl, own, rest⟩ := takes_split behind 2
  obtain ⟨note, _, rfl, type, arrow⟩ := takes_split rest 3
  obtain rfl := show _ = "=>".toList from arrow
  refine ⟨lead, skip, angle, input, note, rfl, ?_, ?_, ?_, ?_, ?_⟩
  · have free := forall_of_takes front (P := (· ≠ '='))
      ⟨uses_word (by decide), blank', uses_word (by decide), blank', letter, noted⟩
    exact fun member => free '=' member rfl
  · exact forall_of_takes async ⟨blank, Uses.optional ⟨uses_word (by decide), blank⟩⟩
  · rcases types with ⟨_, gap, rfl, enclosed, _, blanks⟩ | none
    · obtain ⟨inside, rfl, free⟩ := takes_enclosed enclosed
      refine .inr ⟨inside, gap, by simp, free, fun member => blank' '=' (blanks '=' member) rfl⟩
    · exact .inl none
  · rcases own with enclosed | ⟨some, word⟩
    · exact .inl (takes_enclosed enclosed)
    · exact .inr ⟨List.ne_nil_of_length_pos some, word⟩
  · exact fun member => forall_of_takes type noted '=' member rfl

theorem classHead_parts {place : Place} {limit : Nat} {m : Found} (found : matchAt? classHead limit place = some m) :
    ∃ lead name rest, place.rest = lead ++ (name ++ rest) ∧ m.get 1 = name ∧ name ≠ [] ∧
      (∀ c ∈ name, isWord c = true) ∧ (∀ c ∈ lead, isWord c = true ∨ isBlank c = true) ∧
      m.stop = place.offset + (lead ++ name).length := by
  obtain ⟨finish, run, rfl⟩ := Option.map_eq_some_iff.1 found
  obtain ⟨lead, name, rest, kept, front, ⟨some, word⟩, ahead, rfl⟩ := exists_last_of_run? rfl run
  refine ⟨lead, name, rest, ahead, rfl, List.ne_nil_of_length_pos some, word, ?_, rfl⟩
  have blank (c : Char) (gap : isBlank c = true) : isWord c = true ∨ isBlank c = true := .inr gap
  exact forall_of_takes front ⟨uses_word (by decide), blank, Uses.optional ⟨uses_word (by decide), blank⟩,
    Uses.optional ⟨uses_word (by decide), blank⟩, uses_word (by decide), blank⟩

end CodeDeck.Extract.Curly
