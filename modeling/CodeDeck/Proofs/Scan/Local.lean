import CodeDeck.Proofs.Scan.Annotated
import CodeDeck.Proofs.Scan.Body

/-! Scans read what stands between the place where they start and the place where they stop, and nothing else. Other
text in front of the one and behind the other leaves what is found as it is. -/

namespace CodeDeck.Scan

open CodeDeck.Text

/-! One character at a time. -/

/-- A scan goes through a text character by character. The state and the character tell whether it stops, at an offset
`past` behind the character, or comes to nothing; the next state may depend on the character ahead as well. -/
structure Stepwise {State : Type} (scan : State → Nat → List Char → Option Nat) (past : Nat) : Prop where
  empty : ∀ state i, scan state i [] = none
  step : ∀ state c,
    (∀ i rest, scan state i (c :: rest) = some (i + past)) ∨
    (∀ i rest, scan state i (c :: rest) = none) ∨
    ∀ ahead, ∃ next, ∀ i rest, rest.head? = ahead → scan state i (c :: rest) = scan next (i + 1) rest

/-- In front of any rest and from any offset, the scan stops at the last character of `part`. -/
def StopsAt (scan : Nat → List Char → Option Nat) (past : Nat) (part : List Char) : Prop :=
  part ≠ [] ∧ ∀ i rest, scan i (part ++ rest) = some (i + (part.length - 1) + past)

/-- What a scan has read when it stops makes it stop there again. -/
theorem Stepwise.exists_part {State : Type} {scan : State → Nat → List Char → Option Nat} {past i stop : Nat}
    {s : List Char} (stepwise : Stepwise scan past) {state : State} (found : scan state i s = some stop) :
    ∃ part rest, s = part ++ rest ∧ stop = i + (part.length - 1) + past ∧ StopsAt (scan state) past part := by
  induction s generalizing state i with
  | nil =>
    rw [stepwise.empty] at found
    contradiction
  | cons c rest ih =>
    rcases stepwise.step state c with stops | fails | steps
    · rw [stops] at found
      exact ⟨[c], rest, rfl, (Option.some.inj found).symm, List.cons_ne_nil _ _, stops⟩
    · rw [fails] at found
      contradiction
    · obtain ⟨next, same⟩ := steps rest.head?
      rw [same i rest rfl] at found
      obtain ⟨part, behind, rfl, rfl, nonempty, again⟩ := ih found
      -- the character ahead is one of those that are read before the scan stops
      obtain ⟨d, more, rfl⟩ := List.exists_cons_of_ne_nil nonempty
      refine ⟨c :: d :: more, behind, rfl, ?_, List.cons_ne_nil _ _, ?_⟩
      · simp only [List.length_cons, Nat.add_sub_cancel]
        omega
      · intro j other
        have step := same j (d :: more ++ other) rfl
        rw [List.cons_append, step, again (j + 1) other]
        simp only [List.length_cons, Nat.add_sub_cancel]
        congr 1
        omega

section Scans

variable (quotes : List Char)

theorem braceEnd_stepwise :
    Stepwise (fun (state : Region × Nat) => braceEnd quotes state.1 state.2) 1 where
  empty := fun _ _ => rfl
  step := by
    rintro ⟨region, depth⟩ c
    by_cases opens : region = .code ∧ c = '\x7b'
    · refine .inr (.inr fun _ => ⟨(.code, depth + 1), fun i rest _ => ?_⟩)
      simp only [braceEnd, opens, and_self, if_true]
    by_cases closes : region = .code ∧ c = '\x7d'
    · by_cases last : depth = 1
      · refine .inl fun i rest => ?_
        simp [braceEnd, closes, last]
      · refine .inr (.inr fun _ => ⟨(.code, depth - 1), fun i rest _ => ?_⟩)
        simp [braceEnd, closes, last]
    · refine .inr (.inr fun ahead => ⟨(region.next quotes true c ahead, depth), fun i rest same => ?_⟩)
      simp only [braceEnd, opens, closes, if_false, same]

theorem parenEnd_stepwise :
    Stepwise (fun (state : Region × Nat) => parenEnd quotes state.1 state.2) 1 where
  empty := fun _ _ => rfl
  step := by
    rintro ⟨region, depth⟩ c
    by_cases opens : region = .code ∧ c = '('
    · refine .inr (.inr fun _ => ⟨(.code, depth + 1), fun i rest _ => ?_⟩)
      simp only [parenEnd, opens, and_self, if_true]
    by_cases closes : region = .code ∧ c = ')'
    · by_cases last : depth = 1
      · refine .inl fun i rest => ?_
        simp [parenEnd, closes, last]
      · refine .inr (.inr fun _ => ⟨(.code, depth - 1), fun i rest _ => ?_⟩)
        simp [parenEnd, closes, last]
    · refine .inr (.inr fun ahead => ⟨(region.next quotes false c ahead, depth), fun i rest same => ?_⟩)
      simp only [parenEnd, opens, closes, if_false, same]

theorem annotatedBrace_stepwise :
    Stepwise (fun (state : Region × List Char × Int) => annotatedBrace quotes state.1 state.2.1 state.2.2) 0 where
  empty := fun _ _ => rfl
  step := by
    rintro ⟨region, previous, depth⟩ c
    by_cases shown : region = .code
    · subst shown
      by_cases quoted : c ∈ quotes
      · exact .inr (.inr fun _ => ⟨(.literal c, [c], depth), fun _ _ _ => annotatedBrace_quote quoted⟩)
      by_cases body : c = '\x7b' ∧ depth = 0 ∧ previous ∉ typeLeaders
      · exact .inl fun _ _ => annotatedBrace_body quoted body
      by_cases arrow : c = '>' ∧ previous = ['=']
      · exact .inr (.inr fun _ => ⟨(.code, ['=', '>'], depth), fun _ _ _ => annotatedBrace_arrow quoted arrow⟩)
      by_cases opens : c ∈ ['(', '<', '[', '\x7b']
      · exact .inr (.inr fun _ => ⟨(.code, [c], depth + 1), fun _ _ _ => annotatedBrace_opening quoted opens body⟩)
      by_cases closes : c ∈ [')', '>', ']', '\x7d']
      · exact .inr (.inr fun _ => ⟨(.code, [c], depth - 1), fun _ _ _ => annotatedBrace_closing quoted closes arrow⟩)
      have plain : c ∉ ['(', '<', '[', '\x7b'] ++ [')', '>', ']', '\x7d'] := mt List.mem_append.1 (not_or.2 ⟨opens, closes⟩)
      by_cases ends : c = ';' ∧ depth ≤ 0
      · exact .inr (.inl fun _ _ => by rw [annotatedBrace_plain quoted plain, if_pos ends])
      · refine .inr (.inr fun _ => ⟨(.code, if isBlank c then previous else [c], depth), fun _ _ _ => ?_⟩)
        rw [annotatedBrace_plain quoted plain, if_neg ends]
    · refine .inr (.inr fun ahead => ⟨(region.next quotes false c ahead, previous, depth), fun _ _ same => ?_⟩)
      rw [annotatedBrace_hidden shown, same]

end Scans

/-! The text between the start of a scan and the place where it stops. -/

theorem drop_within (before s after : List Char) {pos : Nat} (inside : pos ≤ s.length) :
    (before ++ (s ++ after)).drop (before.length + pos) = s.drop pos ++ after := by
  rw [← List.drop_drop, List.drop_left, List.drop_append_of_le_length inside]

theorem slice_of_drop {s part rest : List Char} {pos : Nat} (same : s.drop pos = part ++ rest) :
    slice s pos (pos + part.length) = part := by
  rw [slice, same, Nat.add_sub_cancel_left, List.take_left]

theorem le_length_of_drop {s part rest : List Char} {pos : Nat} (same : s.drop pos = part ++ rest)
    (nonempty : part ≠ []) : pos ≤ s.length := by
  by_contra beyond
  rw [List.drop_of_length_le (by omega)] at same
  exact nonempty (List.append_eq_nil_iff.1 same.symm).1

/-- Within another text a scan stops at the same place, and so it does on nothing but the text that it reads. -/
theorem Stepwise.within {State : Type} {scan : State → Nat → List Char → Option Nat} {past pos stop : Nat}
    (stepwise : Stepwise scan past) (state : State) {s : List Char} (found : scan state pos (s.drop pos) = some stop)
    (before after : List Char) :
    scan state (before.length + pos) ((before ++ (s ++ after)).drop (before.length + pos)) =
        some (before.length + stop) ∧
      ∃ size, 0 < size ∧ stop = pos + (size - 1) + past ∧ pos + size ≤ s.length ∧
        scan state 0 (slice s pos (pos + size)) = some (stop - pos) := by
  obtain ⟨part, rest, same, rfl, nonempty, again⟩ := stepwise.exists_part found
  have inside := le_length_of_drop same nonempty
  have length : s.length - pos = part.length + rest.length := by
    rw [← List.length_drop, same, List.length_append]
  refine ⟨?_, part.length, List.length_pos_iff.2 nonempty, rfl, by omega, ?_⟩
  · rw [drop_within before s after inside, same, List.append_assoc, again]
    congr 1
    omega
  · have alone := again 0 []
    rw [List.append_nil] at alone
    rw [slice_of_drop same, alone]
    congr 1
    omega

theorem closingParen?_eq_some_iff {source quotes : List Char} {openAt stop : Nat} :
    closingParen? source openAt quotes = some stop ↔
      (source.drop openAt).head? = some '(' ∧ parenEnd quotes .code 0 openAt (source.drop openAt) = some stop := by
  unfold closingParen?
  split
  · next rest same => simp [same]
  · next other =>
    constructor
    · intro found
      contradiction
    · rintro ⟨first, _⟩
      obtain ⟨rest, same⟩ := List.head?_eq_some_iff.1 first
      exact absurd same (other rest)

theorem bodyBrace?_eq_some_iff {source : List Char} {pos brace : Nat} {terminators : List (List Char)} :
    bodyBrace? source pos terminators = some brace ↔
      ∃ lead rest, source.drop pos = lead ++ '\x7b' :: rest ∧ '\x7b' ∉ lead ∧
        (∀ t ∈ terminators, contains t lead = false) ∧ brace = pos + lead.length := by
  have first {lead rest : List Char} (same : source.drop pos = lead ++ '\x7b' :: rest) (absent : '\x7b' ∉ lead) :
      bodyBrace? source pos terminators =
        if terminators.any (fun t => contains t lead) then none else some (pos + lead.length) := by
    rw [bodyBrace?, index?, same, indexFrom?_single absent]
    simp only [slice_of_drop same]
  constructor
  · intro found
    by_cases braced : '\x7b' ∈ source.drop pos
    · obtain ⟨lead, rest, same, absent⟩ := List.eq_append_cons_of_mem braced
      rw [first same absent] at found
      split at found
      · contradiction
      · next unmarked =>
        refine ⟨lead, rest, same, absent, ?_, (Option.some.inj found).symm⟩
        intro t member
        simpa using fun marked => unmarked (List.any_eq_true.2 ⟨t, member, marked⟩)
    · rw [bodyBrace?, index?, indexFrom?_eq_none braced] at found
      contradiction
  · rintro ⟨lead, rest, same, absent, unmarked, rfl⟩
    rw [first same absent, if_neg]
    intro marked
    obtain ⟨t, member, inside⟩ := List.any_eq_true.1 marked
    rw [unmarked t member] at inside
    contradiction

theorem slice_within (before s after : List Char) (start : Nat) {stop : Nat} (inside : stop ≤ s.length) :
    slice (before ++ (s ++ after)) (before.length + start) (before.length + stop) = slice s start stop := by
  have length : before.length + stop - (before.length + start) = stop - start := by omega
  rw [slice, slice, length]
  by_cases starts : start ≤ s.length
  · rw [drop_within before s after starts, List.take_append_of_le_length]
    rw [List.length_drop]
    omega
  · have empty : stop - start = 0 := by omega
    rw [empty, List.take_zero, List.take_zero]

theorem slice_whole {s : List Char} {n : Nat} (length : s.length = n) : slice s 0 n = s := by
  rw [slice, List.drop_zero, Nat.sub_zero, ← length, List.take_length]

section Found

variable {quotes s : List Char} (before after : List Char)

theorem braceBlock?_within {start scanFrom : Nat} {code : List Char}
    (found : braceBlock? s start scanFrom quotes = some code) :
    braceBlock? (before ++ (s ++ after)) (before.length + start) (before.length + scanFrom) quotes = some code ∧
      ∃ stop, code = slice s start stop ∧
        braceBlock? (slice s scanFrom stop) 0 0 quotes = some (slice s scanFrom stop) := by
  obtain ⟨stop, ends, rfl⟩ := Option.map_eq_some_iff.1 found
  obtain ⟨moved, size, some_, rfl, inside, alone⟩ :=
    (braceEnd_stepwise quotes).within (.code, 0) ends before after
  have stops : scanFrom + (size - 1) + 1 = scanFrom + size := by omega
  rw [stops] at moved alone ⊢
  refine ⟨?_, scanFrom + size, rfl, ?_⟩
  · rw [braceBlock?, moved, Option.map_some, slice_within before s after start inside]
  · have length : (slice s scanFrom (scanFrom + size)).length = scanFrom + size - scanFrom := by
      rw [slice, List.length_take, List.length_drop]
      omega
    rw [braceBlock?, List.drop_zero, alone, Option.map_some, slice_whole length]

theorem closingParen?_within {openAt stop : Nat} (found : closingParen? s openAt quotes = some stop) :
    closingParen? (before ++ (s ++ after)) (before.length + openAt) quotes = some (before.length + stop) ∧
      closingParen? (slice s openAt stop) 0 quotes = some (stop - openAt) := by
  obtain ⟨first, ends⟩ := closingParen?_eq_some_iff.1 found
  obtain ⟨moved, size, some_, rfl, inside, alone⟩ := (parenEnd_stepwise quotes).within (.code, 0) ends before after
  have stops : openAt + (size - 1) + 1 = openAt + size := by omega
  rw [stops] at moved alone ⊢
  rw [closingParen?_eq_some_iff, closingParen?_eq_some_iff, List.drop_zero]
  obtain ⟨rest, same⟩ := List.head?_eq_some_iff.1 first
  refine ⟨⟨?_, moved⟩, ?_, alone⟩
  · rw [drop_within before s after (by omega), same]
    rfl
  · obtain ⟨n, rfl⟩ := Nat.exists_eq_add_of_lt some_
    rw [slice, same, Nat.add_sub_cancel_left, Nat.zero_add, List.take_succ_cons]
    rfl

theorem bodyBrace?_within {pos brace : Nat} {terminators : List (List Char)}
    (found : bodyBrace? s pos terminators = some brace) :
    bodyBrace? (before ++ (s ++ after)) (before.length + pos) terminators = some (before.length + brace) ∧
      bodyBrace? (slice s pos (brace + 1)) 0 terminators = some (brace - pos) := by
  obtain ⟨lead, rest, same, absent, unmarked, rfl⟩ := bodyBrace?_eq_some_iff.1 found
  have split : s.drop pos = (lead ++ ['\x7b']) ++ rest := by rw [same, List.append_assoc, List.singleton_append]
  have inside := le_length_of_drop split (List.append_ne_nil_of_right_ne_nil _ (List.cons_ne_nil _ _))
  rw [bodyBrace?_eq_some_iff, bodyBrace?_eq_some_iff, List.drop_zero]
  refine ⟨⟨lead, rest ++ after, ?_, absent, unmarked, by omega⟩, lead, [], ?_, absent, unmarked, by omega⟩
  · rw [drop_within before s after inside, same, List.append_assoc, List.cons_append]
  · have length : pos + lead.length + 1 = pos + (lead ++ ['\x7b']).length := by
      rw [List.length_append, List.length_singleton]
      omega
    rw [length, slice_of_drop split]

theorem annotatedBodyBrace?_within {pos brace : Nat} {previous : List Char}
    (found : annotatedBodyBrace? s pos previous quotes = some brace) :
    annotatedBodyBrace? (before ++ (s ++ after)) (before.length + pos) previous quotes = some (before.length + brace) ∧
      annotatedBodyBrace? (slice s pos (brace + 1)) 0 previous quotes = some (brace - pos) := by
  obtain ⟨moved, size, some_, rfl, _, alone⟩ :=
    (annotatedBrace_stepwise quotes).within (.code, previous, 0) found before after
  have stops : pos + (size - 1) + 0 + 1 = pos + size := by omega
  rw [stops]
  exact ⟨moved, alone⟩

end Found

/-- Each scan that finds something finds the same at the same place of a longer text, and on nothing but the text from
its start through what it finds. So neither the text in front of the one nor the text behind the other matters. -/
theorem scans_local (before s after quotes : List Char) :
    (∀ start scanFrom code, braceBlock? s start scanFrom quotes = some code →
      braceBlock? (before ++ (s ++ after)) (before.length + start) (before.length + scanFrom) quotes = some code ∧
      ∃ stop, code = slice s start stop ∧
        braceBlock? (slice s scanFrom stop) 0 0 quotes = some (slice s scanFrom stop)) ∧
    (∀ openAt stop, closingParen? s openAt quotes = some stop →
      closingParen? (before ++ (s ++ after)) (before.length + openAt) quotes = some (before.length + stop) ∧
      closingParen? (slice s openAt stop) 0 quotes = some (stop - openAt)) ∧
    (∀ pos terminators brace, bodyBrace? s pos terminators = some brace →
      bodyBrace? (before ++ (s ++ after)) (before.length + pos) terminators = some (before.length + brace) ∧
      bodyBrace? (slice s pos (brace + 1)) 0 terminators = some (brace - pos)) ∧
    ∀ pos previous brace, annotatedBodyBrace? s pos previous quotes = some brace →
      annotatedBodyBrace? (before ++ (s ++ after)) (before.length + pos) previous quotes =
          some (before.length + brace) ∧
        annotatedBodyBrace? (slice s pos (brace + 1)) 0 previous quotes = some (brace - pos) :=
  ⟨fun _ _ _ found => braceBlock?_within before after found, fun _ _ found => closingParen?_within before after found,
    fun _ _ _ found => bodyBrace?_within before after found,
    fun _ _ _ found => annotatedBodyBrace?_within before after found⟩

def openEnded : List Char := "f(a): T \x7b b \x7d /".toList

theorem open_end_ignored :
    braceBlock? openEnded 0 8 defaultQuotes = some "f(a): T \x7b b \x7d".toList ∧
      braceBlock? ("\x7b '".toList ++ (openEnded ++ "* \x7d".toList)) 3 11 defaultQuotes =
        some "f(a): T \x7b b \x7d".toList ∧
      annotatedBodyBrace? openEnded 4 [')'] defaultQuotes = some 8 ∧
      annotatedBodyBrace? ("\x7b '".toList ++ (openEnded ++ "* \x7d".toList)) 7 [')'] defaultQuotes = some 11 := by
  have block : braceBlock? openEnded 0 8 defaultQuotes = some "f(a): T \x7b b \x7d".toList := by decide
  have brace : annotatedBodyBrace? openEnded 4 [')'] defaultQuotes = some 8 := by decide
  obtain ⟨braces, _, _, bodies⟩ := scans_local "\x7b '".toList openEnded "* \x7d".toList defaultQuotes
  exact ⟨block, (braces 0 8 _ block).1, brace, (bodies 4 _ 8 brace).1⟩

end CodeDeck.Scan
