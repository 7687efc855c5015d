import CodeDeck.Pattern.Search
import Mathlib.Data.List.Infix
import Mathlib.Data.List.TakeWhile

/-! What a pattern takes and where it is found. A match takes a text of the pattern, so that none is found where
no such text starts. A text that a pattern prefers is taken wherever it stands. -/

namespace CodeDeck.Pattern

/-- The texts that a pattern can take. -/
def Takes : Pattern → List Char → Prop
  | text s, taken => taken = s
  | one allowed, taken => ∃ c, allowed c = true ∧ taken = [c]
  | run allowed least, taken => least ≤ taken.length ∧ ∀ c ∈ taken, allowed c = true
  | shortRun allowed, taken => ∀ c ∈ taken, allowed c = true
  | lineStart, taken => taken = []
  | both first second, taken => ∃ a b, taken = a ++ b ∧ first.Takes a ∧ second.Takes b
  | either first second, taken => first.Takes taken ∨ second.Takes taken
  | repeated body, taken => ∃ parts : List (List Char), taken = parts.flatten ∧ ∀ a ∈ parts, body.Takes a
  | keep _ body, taken => body.Takes taken

def Starts (p : Pattern) (s : List Char) : Prop := ∃ taken, taken <+: s ∧ p.Takes taken

section Starts

variable {first second : Pattern} {s : List Char}

theorem Starts.both (starts : (both first second).Starts s) :
    ∃ a rest, s = a ++ rest ∧ first.Takes a ∧ second.Starts rest := by
  obtain ⟨taken, ⟨rest, rfl⟩, a, b, rfl, takes, takes'⟩ := starts
  exact ⟨a, b ++ rest, List.append_assoc .., takes, b, List.prefix_append .., takes'⟩

theorem Starts.optional (starts : (Pattern.both (optional first) second).Starts s) :
    first.Starts s ∨ second.Starts s := by
  obtain ⟨a, rest, rfl, takes | takes, more⟩ := starts.both
  · exact .inl ⟨a, List.prefix_append .., takes⟩
  · obtain rfl : a = [] := takes
    exact .inr more

theorem Starts.text {w : List Char} (starts : (Pattern.text w).Starts s) : w <+: s := by
  obtain ⟨_, start, rfl⟩ := starts
  exact start

theorem Starts.opening {w : List Char} (starts : (Pattern.both (.text w) second).Starts s) : w <+: s := by
  obtain ⟨a, rest, rfl, takes, _⟩ := starts.both
  obtain rfl : a = w := takes
  exact List.prefix_append ..

end Starts

def lastOr : List Char → Option Char → Option Char
  | [], previous => previous
  | c :: rest, _ => lastOr rest (some c)

theorem lastOr_append (a b : List Char) (previous : Option Char) :
    lastOr (a ++ b) previous = lastOr b (lastOr a previous) := by
  induction a generalizing previous with
  | nil => rfl
  | cons c rest ih => exact ih (some c)

def Place.behind (p : Place) (taken rest : List Char) (kept : List (Nat × List Char)) : Place :=
  ⟨p.offset + taken.length, lastOr taken p.previous, rest, kept⟩

@[simp]
theorem Place.behind_behind (p : Place) (a b rest rest' : List Char) (kept kept' : List (Nat × List Char)) :
    (p.behind a rest kept).behind b rest' kept' = p.behind (a ++ b) rest' kept' := by
  simp only [behind, lastOr_append, List.length_append, Nat.add_assoc]

theorem Place.advance_behind (p : Place) (c : Char) (rest taken rest' : List Char)
    (kept : List (Nat × List Char)) :
    (p.advance c rest).behind taken rest' kept = p.behind (c :: taken) rest' kept := by
  simp only [behind, advance, lastOr, List.length_cons, Nat.add_assoc, Nat.add_comm 1]

/-! A single step of a match. -/

theorem takeText_behind {s rest : List Char} {p : Place} (ahead : p.rest = s ++ rest) :
    takeText s p = some (p.behind s rest p.kept) := by
  induction s generalizing p with
  | nil =>
    have same : p.rest = rest := ahead
    rw [takeText, ← same]
    rfl
  | cons c more ih =>
    have next : (p.advance c (more ++ rest)).rest = more ++ rest := rfl
    rw [takeText, ahead, List.cons_append]
    simp only [if_true]
    rw [ih next, Place.advance_behind]
    rfl

theorem rest_of_takeText {s : List Char} {p q : Place} (found : takeText s p = some q) :
    ∃ rest, p.rest = s ++ rest := by
  induction s generalizing p with
  | nil => exact ⟨p.rest, rfl⟩
  | cons c more ih =>
    rw [takeText] at found
    split at found
    · next d behind ahead =>
      split at found
      · next same =>
        obtain ⟨rest, later⟩ := ih found
        refine ⟨rest, ?_⟩
        rw [ahead, same, List.cons_append, ← later]
        rfl
      · contradiction
    · contradiction

theorem firstSome_eq_findSome? (complete : Place → Option Place) (ps : List Place) :
    firstSome complete ps = ps.findSome? complete := by
  induction ps with
  | nil => rfl
  | cons p others ih =>
    rw [firstSome, List.findSome?_cons, ih]
    cases complete p <;> rfl

theorem runEnds_eq (allowed : Char → Bool) (p : Place) (nearer : List Place) :
    runEnds allowed p nearer p.rest =
      ((p.rest.takeWhile allowed).inits.map fun a =>
        p.behind a (p.rest.drop a.length) p.kept).reverse ++ nearer := by
  obtain ⟨offset, previous, s, kept⟩ := p
  induction s generalizing offset previous nearer with
  | nil => rfl
  | cons c rest ih =>
    by_cases inside : allowed c = true
    · have later := ih (⟨offset, previous, c :: rest, kept⟩ :: nearer) (offset + 1) (some c)
      simp only [runEnds, Place.advance, inside, if_true, List.takeWhile_cons, List.inits_cons] at later ⊢
      rw [later]
      simp only [List.map_cons, List.map_map, List.reverse_cons, List.append_assoc, List.singleton_append]
      congr 2
      apply List.map_congr_left
      intro a _
      exact Place.advance_behind ⟨offset, previous, c :: rest, kept⟩ c rest a _ kept
    · simp [runEnds, inside, Place.behind, lastOr]

theorem take_reverse_length_sub {α : Type} (items : List α) (n : Nat) :
    items.reverse.take (items.reverse.length - n) = (items.drop n).reverse := by
  rw [List.take_reverse, List.length_reverse]
  by_cases enough : n ≤ items.length
  · rw [Nat.sub_sub_self enough]
  · have short : items.length - n = 0 := by omega
    rw [short, Nat.sub_zero, List.drop_length, List.drop_of_length_le (by omega)]

theorem length_of_mem_drop_inits {a w : List Char} {n : Nat} (member : a ∈ w.inits.drop n) :
    a <+: w ∧ n ≤ a.length := by
  refine ⟨(List.mem_inits ..).1 (List.mem_of_mem_drop member), ?_⟩
  obtain ⟨i, inside, same⟩ := List.mem_iff_getElem.1 member
  rw [List.getElem_drop, List.getElem_inits] at same
  have bound : n + i < w.inits.length := by
    rw [List.length_drop] at inside
    omega
  rw [List.length_inits] at bound
  rw [← same, List.length_take]
  omega

theorem offered_eq (allowed : Char → Bool) (least : Nat) (p : Place) :
    (runEnds allowed p [] p.rest).take ((runEnds allowed p [] p.rest).length - least) =
      (((p.rest.takeWhile allowed).inits.drop least).map fun a =>
        p.behind a (p.rest.drop a.length) p.kept).reverse := by
  rw [runEnds_eq, List.append_nil, take_reverse_length_sub, List.map_drop]

theorem of_prefix_takeWhile {allowed : Char → Bool} {a s : List Char} (start : a <+: s.takeWhile allowed) :
    (∀ c ∈ a, allowed c = true) ∧ s = a ++ s.drop a.length :=
  ⟨fun _ inside => List.mem_takeWhile_imp (start.subset inside),
    (List.prefix_iff_eq_append.1 (start.trans (List.takeWhile_prefix _))).symm⟩

/-! Soundness: what is taken is a text of the pattern. -/

/-- From `p` on, a text of the pattern has been taken on the way to a place that completes the match. -/
def Place.Reaches (p : Place) (pattern : Pattern) (complete : Place → Option Place) (done : Place) : Prop :=
  ∃ taken rest kept, pattern.Takes taken ∧ p.rest = taken ++ rest ∧
    complete (p.behind taken rest kept) = some done

theorem reaches_repeatBody {pattern : Pattern} {body : Place → (Place → Option Place) → Option Place}
    (sound : ∀ p complete done, body p complete = some done → p.Reaches pattern complete done)
    {complete : Place → Option Place} {limit : Nat} {p done : Place}
    (found : repeatBody body complete limit p = some done) : p.Reaches (.repeated pattern) complete done := by
  have stop {p : Place} (found : complete p = some done) : p.Reaches (.repeated pattern) complete done :=
    ⟨[], p.rest, p.kept, ⟨[], rfl, by simp⟩, rfl, found⟩
  induction limit generalizing p with
  | zero => exact stop found
  | succ limit ih =>
    rw [repeatBody] at found
    split at found
    · next q more =>
      obtain rfl := Option.some.inj found
      obtain ⟨a, rest, kept, takes, ahead, again⟩ := sound _ _ _ more
      dsimp only at again
      split at again
      · obtain ⟨b, rest', kept', ⟨parts, joined, each⟩, behind, final⟩ := ih again
        refine ⟨a ++ b, rest', kept', ⟨a :: parts, ?_, ?_⟩, ?_, ?_⟩
        · rw [joined, List.flatten_cons]
        · intro part member
          rcases List.mem_cons.1 member with same | later
          · exact same ▸ takes
          · exact each part later
        · rw [ahead, show rest = b ++ rest' from behind, List.append_assoc]
        · rw [← final, Place.behind_behind]
      · contradiction
    · exact stop found

theorem reaches_of_run? {pattern : Pattern} {limit : Nat} {p done : Place}
    {complete : Place → Option Place} (found : run? limit pattern p complete = some done) :
    p.Reaches pattern complete done := by
  induction pattern generalizing p complete done with
  | text s =>
    obtain ⟨q, taken, final⟩ := Option.bind_eq_some_iff.1 found
    obtain ⟨rest, ahead⟩ := rest_of_takeText taken
    rw [takeText_behind ahead] at taken
    obtain rfl := Option.some.inj taken
    exact ⟨s, rest, p.kept, rfl, ahead, final⟩
  | one allowed =>
    rw [run?] at found
    split at found
    · next c rest ahead =>
      split at found
      · next inside => exact ⟨[c], rest, p.kept, ⟨c, inside, rfl⟩, ahead, found⟩
      · contradiction
    · contradiction
  | run allowed least =>
    simp only [run?, offered_eq, firstSome_eq_findSome?] at found
    obtain ⟨q, offered, final⟩ := List.exists_of_findSome?_eq_some found
    rw [List.mem_reverse, List.mem_map] at offered
    obtain ⟨a, member, rfl⟩ := offered
    obtain ⟨start, enough⟩ := length_of_mem_drop_inits member
    obtain ⟨inside, ahead⟩ := of_prefix_takeWhile start
    exact ⟨a, p.rest.drop a.length, p.kept, ⟨enough, inside⟩, ahead, final⟩
  | shortRun allowed =>
    simp only [run?, runEnds_eq, firstSome_eq_findSome?] at found
    obtain ⟨q, offered, final⟩ := List.exists_of_findSome?_eq_some found
    rw [List.append_nil, List.reverse_reverse, List.mem_map] at offered
    obtain ⟨a, member, rfl⟩ := offered
    obtain ⟨inside, ahead⟩ := of_prefix_takeWhile ((List.mem_inits ..).1 member)
    exact ⟨a, p.rest.drop a.length, p.kept, inside, ahead, final⟩
  | lineStart =>
    rw [run?] at found
    split at found
    · exact ⟨[], p.rest, p.kept, rfl, rfl, found⟩
    · contradiction
  | both first second ih ih' =>
    obtain ⟨a, rest, kept, takes, ahead, more⟩ := ih found
    obtain ⟨b, rest', kept', takes', behind, final⟩ := ih' more
    refine ⟨a ++ b, rest', kept', ⟨a, b, rfl, takes, takes'⟩, ?_, ?_⟩
    · rw [ahead, show rest = b ++ rest' from behind, List.append_assoc]
    · rw [← final, Place.behind_behind]
  | either first second ih ih' =>
    rw [run?] at found
    split at found
    · next q preferred =>
      obtain rfl := Option.some.inj found
      obtain ⟨a, rest, kept, takes, ahead, final⟩ := ih preferred
      exact ⟨a, rest, kept, .inl takes, ahead, final⟩
    · obtain ⟨a, rest, kept, takes, ahead, final⟩ := ih' found
      exact ⟨a, rest, kept, .inr takes, ahead, final⟩
  | repeated body ih => exact reaches_repeatBody (fun _ _ _ => ih) found
  | keep slot body ih =>
    obtain ⟨a, rest, kept, takes, ahead, final⟩ := ih found
    exact ⟨a, rest, _, takes, ahead, final⟩

theorem run?_eq_none {pattern : Pattern} {p : Place} (absent : ¬ pattern.Starts p.rest) (limit : Nat)
    (complete : Place → Option Place) : run? limit pattern p complete = none := by
  cases found : run? limit pattern p complete with
  | none => rfl
  | some done =>
    obtain ⟨taken, rest, _, takes, ahead, _⟩ := reaches_of_run? found
    exact absurd ⟨taken, ⟨rest, ahead.symm⟩, takes⟩ absent

/-! Preference: a text that a pattern takes before all others in front of a given rest. -/

/-- In front of `rest` the pattern takes `taken` first, and remembers `kept` of it. -/
def Prefers (pattern : Pattern) (taken rest : List Char) (kept : List (Nat × List Char)) : Prop :=
  ∀ limit (p : Place) complete done, p.rest = taken ++ rest →
    complete (p.behind taken rest (kept ++ p.kept)) = some done → run? limit pattern p complete = some done

theorem prefers_text (s rest : List Char) : (text s).Prefers s rest [] := by
  intro limit p complete done ahead final
  rw [run?, takeText_behind ahead]
  exact final

theorem prefers_run {allowed : Char → Bool} {least : Nat} {taken rest : List Char}
    (inside : ∀ c ∈ taken, allowed c = true) (enough : least ≤ taken.length)
    (stops : ∀ c, rest.head? = some c → allowed c = false) : (run allowed least).Prefers taken rest [] := by
  intro limit p complete done ahead final
  have whole : p.rest.takeWhile allowed = taken := by
    rw [ahead, List.takeWhile_append_of_pos inside]
    cases rest with
    | nil => simp
    | cons c behind => simp [stops c rfl]
  obtain ⟨others, farthest⟩ : ∃ others, taken.inits.drop least = others ++ [taken] := by
    have last : (taken.inits.drop least).getLast? = some taken := by
      rw [List.getLast?_drop, if_neg (by rw [List.length_inits]; omega), List.getLast?_eq_getElem?,
        List.getElem?_eq_getElem (by simp), List.getElem_inits]
      simp
    exact ⟨_, (List.dropLast_append_getLast? _ last).symm⟩
  have dropped : p.rest.drop taken.length = rest := by rw [ahead, List.drop_left]
  simp only [run?, offered_eq, whole, farthest, firstSome_eq_findSome?, List.map_append, List.map_cons,
    List.map_nil, List.reverse_append, List.reverse_cons, List.reverse_nil, List.nil_append,
    List.singleton_append, List.findSome?_cons, dropped]
  rw [show complete (p.behind taken rest p.kept) = some done from final]

theorem prefers_run_before {allowed : Char → Bool} {least : Nat} {taken rest : List Char} {c : Char}
    (inside : ∀ c ∈ taken, allowed c = true) (enough : least ≤ taken.length) (ahead : rest.head? = some c)
    (stops : allowed c = false) : (run allowed least).Prefers taken rest [] := by
  apply prefers_run inside enough
  intro d first
  rw [ahead] at first
  exact Option.some.inj first ▸ stops

theorem Prefers.both {first second : Pattern} {a b rest : List Char} {kept kept' : List (Nat × List Char)}
    (one : first.Prefers a (b ++ rest) kept) (two : second.Prefers b rest kept') :
    (both first second).Prefers (a ++ b) rest (kept' ++ kept) := by
  intro limit p complete done ahead final
  rw [run?]
  apply one limit p _ done (by rw [ahead, List.append_assoc])
  apply two limit _ complete done rfl
  rw [Place.behind_behind]
  rw [List.append_assoc] at final
  exact final

theorem Prefers.lead {first second : Pattern} {a b rest : List Char} {kept : List (Nat × List Char)}
    (one : first.Prefers a (b ++ rest) []) (two : second.Prefers b rest kept) :
    (Pattern.both first second).Prefers (a ++ b) rest kept := by
  have together := one.both two
  rwa [List.append_nil] at together

theorem Prefers.first {first : Pattern} {taken rest : List Char} {kept : List (Nat × List Char)}
    (one : first.Prefers taken rest kept) (second : Pattern) : (either first second).Prefers taken rest kept := by
  intro limit p complete done ahead final
  rw [run?, one limit p complete done ahead final]

theorem Prefers.other {first second : Pattern} {taken rest : List Char} {kept : List (Nat × List Char)}
    (absent : ¬ first.Starts (taken ++ rest)) (two : second.Prefers taken rest kept) :
    (either first second).Prefers taken rest kept := by
  intro limit p complete done ahead final
  rw [run?, run?_eq_none (ahead ▸ absent)]
  exact two limit p complete done ahead final

theorem prefers_without {pattern : Pattern} {rest : List Char} (absent : ¬ pattern.Starts rest) :
    (optional pattern).Prefers [] rest [] := Prefers.other absent (prefers_text [] rest)

theorem Prefers.keep {body : Pattern} {taken rest : List Char} {kept : List (Nat × List Char)}
    (inner : body.Prefers taken rest kept) (slot : Nat) :
    (keep slot body).Prefers taken rest ((slot, taken) :: kept) := by
  intro limit p complete done ahead final
  rw [run?]
  apply inner limit p _ done ahead
  have read : p.rest.take ((p.behind taken rest (kept ++ p.kept)).offset - p.offset) = taken := by
    rw [ahead, Place.behind, Nat.add_sub_cancel_left, List.take_left]
  rw [read]
  exact final

/-! Search. -/

theorem matchAt?_of_prefers {pattern : Pattern} {taken rest : List Char} {kept : List (Nat × List Char)}
    (preferred : pattern.Prefers taken rest kept) (limit offset : Nat) (previous : Option Char) :
    matchAt? pattern limit ⟨offset, previous, taken ++ rest, []⟩ =
      some ⟨offset, offset + taken.length, kept⟩ := by
  have found := preferred limit ⟨offset, previous, taken ++ rest, []⟩ some _ rfl rfl
  rw [matchAt?, found, Option.map_some, Place.behind, List.append_nil]

theorem matchAt?_eq_none {pattern : Pattern} {p : Place} (absent : ¬ pattern.Starts p.rest) (limit : Nat) :
    matchAt? pattern limit p = none := by
  rw [matchAt?, run?_eq_none absent, Option.map_none]

/-- In none of the places of `s`, behind which `rest` follows, a text of the pattern starts. -/
def Quiet (pattern : Pattern) (s rest : List Char) : Prop :=
  ∀ later, later <:+ s → later ≠ [] → ¬ pattern.Starts (later ++ rest)

theorem quiet_nil {pattern : Pattern} (rest : List Char) : pattern.Quiet [] rest := by
  intro later suffix nonempty
  exact absurd (List.suffix_nil.1 suffix) nonempty

theorem quiet_cons {pattern : Pattern} {c : Char} {s rest : List Char}
    (absent : ¬ pattern.Starts (c :: (s ++ rest))) (behind : pattern.Quiet s rest) :
    pattern.Quiet (c :: s) rest := by
  intro later suffix nonempty
  rcases List.suffix_cons_iff.1 suffix with same | inner
  · rw [same]
    exact absent
  · exact behind later inner nonempty

theorem Quiet.append {pattern : Pattern} {s t rest : List Char} (first : pattern.Quiet s (t ++ rest))
    (second : pattern.Quiet t rest) : pattern.Quiet (s ++ t) rest := by
  intro later suffix nonempty
  obtain ⟨lead, whole⟩ := suffix
  rcases List.append_eq_append_iff.1 whole with ⟨a, before, rfl⟩ | ⟨a, _, inner⟩
  · by_cases empty : a = []
    · rw [empty, List.nil_append] at nonempty ⊢
      exact second t (List.suffix_refl t) nonempty
    · rw [List.append_assoc]
      exact first a ⟨lead, before.symm⟩ empty
  · exact second later ⟨a, inner.symm⟩ nonempty

section Find

variable {pattern : Pattern} {limit : Nat} {s rest : List Char} {found : List Found}

theorem findFrom_skip (offset : Nat) (previous : Option Char) :
    findFrom pattern limit s.length offset previous found (s ++ rest) =
      findFrom pattern limit 0 (offset + s.length) (lastOr s previous) found rest := by
  induction s generalizing offset previous with
  | nil => rfl
  | cons c behind ih =>
    rw [List.length_cons, List.cons_append, findFrom, ih, Nat.add_assoc, Nat.add_comm 1]
    rfl

theorem findFrom_quiet (quiet : pattern.Quiet s rest) (offset : Nat) (previous : Option Char) :
    findFrom pattern limit 0 offset previous found (s ++ rest) =
      findFrom pattern limit 0 (offset + s.length) (lastOr s previous) found rest := by
  induction s generalizing offset previous with
  | nil => rfl
  | cons c behind ih =>
    have absent := quiet (c :: behind) (List.suffix_refl _) (List.cons_ne_nil _ _)
    have later : pattern.Quiet behind rest := by
      intro s suffix
      exact quiet s (suffix.trans (List.suffix_cons c behind))
    have none : matchAt? pattern limit ⟨offset, previous, c :: (behind ++ rest), []⟩ = none :=
      matchAt?_eq_none absent limit
    rw [List.cons_append, findFrom, none]
    rw [ih later, List.length_cons, Nat.add_assoc, Nat.add_comm 1]
    rfl

theorem findFrom_match {kept : List (Nat × List Char)} (preferred : pattern.Prefers s rest kept)
    (nonempty : s ≠ []) (offset : Nat) (previous : Option Char) :
    findFrom pattern limit 0 offset previous found (s ++ rest) =
      findFrom pattern limit 0 (offset + s.length) (lastOr s previous)
        (⟨offset, offset + s.length, kept⟩ :: found) rest := by
  obtain ⟨c, behind, rfl⟩ := List.exists_cons_of_ne_nil nonempty
  have matched := matchAt?_of_prefers preferred limit offset previous
  rw [List.cons_append] at matched ⊢
  rw [findFrom, matched]
  have left : offset + (c :: behind).length - offset - 1 = behind.length := by
    rw [List.length_cons]
    omega
  simp only [left]
  rw [findFrom_skip, List.length_cons, Nat.add_assoc, Nat.add_comm 1]
  rfl

end Find

end CodeDeck.Pattern
