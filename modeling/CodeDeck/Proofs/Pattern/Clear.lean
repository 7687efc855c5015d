import CodeDeck.Proofs.Pattern.Line

/-! A search reaches each place that no earlier match runs into. A text that the pattern prefers is found where it
stands at the start of such a line, whatever is around it. -/

namespace CodeDeck.Pattern

/-- No match that starts in `before` goes on in `behind`. -/
def Clear (p : Pattern) (before behind : List Char) : Prop :=
  ∀ m ∈ p.findAll (before ++ behind), m.start < before.length → m.stop ≤ before.length

instance (p : Pattern) (before behind : List Char) : Decidable (Clear p before behind) :=
  inferInstanceAs (Decidable (∀ m ∈ p.findAll (before ++ behind), m.start < before.length → m.stop ≤ before.length))

section Find

variable {p : Pattern} {limit skip offset : Nat} {previous : Option Char} {found : List Found} {s : List Char}

theorem mem_findFrom_of_mem {m : Found} (member : m ∈ found) :
    m ∈ findFrom p limit skip offset previous found s := by
  induction s generalizing skip offset previous found with
  | nil => exact List.mem_reverse.2 member
  | cons c rest ih =>
    unfold findFrom
    split
    · exact ih member
    · split
      · exact ih (List.mem_cons_of_mem _ member)
      · exact ih member

theorem start_of_matchAt? {place : Place} {m : Found} (matched : matchAt? p limit place = some m) :
    m.start = place.offset := by
  obtain ⟨finish, _, rfl⟩ := Option.map_eq_some_iff.1 matched
  rfl

theorem mem_or_le_of_mem_findFrom {m : Found} (member : m ∈ findFrom p limit skip offset previous found s) :
    m ∈ found ∨ offset ≤ m.start := by
  induction s generalizing skip offset previous found with
  | nil => exact .inl (List.mem_reverse.1 member)
  | cons c rest ih =>
    unfold findFrom at member
    split at member
    · exact (ih member).imp_right Nat.le_of_succ_le
    · split at member
      · next first matched =>
        rcases ih member with here | later
        · rcases List.mem_cons.1 here with rfl | before
          · exact .inr (Nat.le_of_eq (start_of_matchAt? matched).symm)
          · exact .inl before
        · exact .inr (Nat.le_of_succ_le later)
      · exact (ih member).imp_right Nat.le_of_succ_le

/-- The search comes to the end of `before` with nothing of a match left to skip. -/
theorem exists_findFrom_clear {before behind : List Char} (room : skip ≤ before.length)
    (clear : ∀ m ∈ findFrom p limit skip offset previous found (before ++ behind),
      m.start < offset + before.length → m.stop ≤ offset + before.length) :
    ∃ found', findFrom p limit skip offset previous found (before ++ behind) =
        findFrom p limit 0 (offset + before.length) (lastOr before previous) found' behind ∧
      ∀ m ∈ found', m ∈ found ∨ m.start < offset + before.length := by
  -- A match that starts in `before` ends there by `clear`, so what it leaves to skip fits in the rest of `before`.
  induction before generalizing skip offset previous found with
  | nil =>
    obtain rfl : skip = 0 := Nat.le_zero.1 room
    exact ⟨found, rfl, fun _ member => .inl member⟩
  | cons c rest ih =>
    have length : offset + (c :: rest).length = offset + 1 + rest.length := by
      rw [List.length_cons]
      omega
    rw [List.cons_append] at clear ⊢
    rw [length] at clear ⊢
    cases skip with
    | succ skip => exact ih (Nat.le_of_succ_le_succ room) clear
    | zero =>
      cases matched : matchAt? p limit ⟨offset, previous, c :: (rest ++ behind), []⟩ with
      | none =>
        have step : findFrom p limit 0 offset previous found (c :: (rest ++ behind)) =
            findFrom p limit 0 (offset + 1) (some c) found (rest ++ behind) := by
          rw [findFrom, matched]
        rw [step] at clear ⊢
        exact ih (Nat.zero_le _) clear
      | some first =>
        have step : findFrom p limit 0 offset previous found (c :: (rest ++ behind)) =
            findFrom p limit (first.stop - offset - 1) (offset + 1) (some c) (first :: found) (rest ++ behind) := by
          rw [findFrom, matched]
        rw [step] at clear ⊢
        have start : first.start = offset := start_of_matchAt? matched
        have ends := clear first (mem_findFrom_of_mem List.mem_cons_self) (by omega)
        obtain ⟨found', same, before⟩ := ih (by omega) clear
        refine ⟨found', same, fun m member => ?_⟩
        rcases before m member with here | less
        · rcases List.mem_cons.1 here with rfl | earlier
          · exact .inr (by omega)
          · exact .inl earlier
        · exact .inr less

theorem mem_findAll_iff_of_matchAt? {before text : List Char} {first : Found} (nonempty : text ≠ [])
    (matched : ∀ limit, matchAt? p limit ⟨before.length, lastOr before none, text, []⟩ = some first)
    (clear : Clear p before text) (m : Found) :
    m ∈ p.findAll (before ++ text) ∧ m.start = before.length ↔ m = first := by
  have outside : ∀ m ∈ findFrom p (before ++ text).length 0 0 none [] (before ++ text),
      m.start < 0 + before.length → m.stop ≤ 0 + before.length := by
    intro m member
    rw [Nat.zero_add]
    exact clear m member
  obtain ⟨found, reached, earlier⟩ := exists_findFrom_clear (Nat.zero_le _) outside
  obtain ⟨c, more, rfl⟩ := List.exists_cons_of_ne_nil nonempty
  have here : first.start = before.length := start_of_matchAt? (matched 0)
  rw [findAll, reached, Nat.zero_add, findFrom, matched]
  constructor
  · rintro ⟨member, start⟩
    rcases mem_or_le_of_mem_findFrom member with known | later
    · rcases List.mem_cons.1 known with same | before
      · exact same
      · rcases earlier m before with none | less
        · contradiction
        · omega
    · omega
  · rintro rfl
    exact ⟨mem_findFrom_of_mem List.mem_cons_self, here⟩

section Line

variable {q : Pattern} {taken before rest : List Char} {kept : List (Nat × List Char)}

/-- Of a text that the pattern prefers, at the start of a line that is clear of earlier matches, just this text is
found. -/
theorem mem_findAll_iff_of_clear (preferred : p.Prefers taken rest kept) (nonempty : taken ≠ [])
    (start : StartsLine (lastOr before none)) (clear : Clear (both lineStart p) before (taken ++ rest)) (m : Found) :
    m ∈ (both lineStart p).findAll (before ++ (taken ++ rest)) ∧ m.start = before.length ↔
      m = ⟨before.length, before.length + taken.length, kept⟩ := by
  apply mem_findAll_iff_of_matchAt? (List.append_ne_nil_of_left_ne_nil nonempty rest) _ clear m
  intro limit
  rw [matchAt?_startsLine start]
  exact matchAt?_of_prefers preferred limit before.length (lastOr before none)

theorem matchAt?_both_assoc {r : Pattern} {place : Place} :
    matchAt? (both (both p q) r) limit place = matchAt? (both p (both q r)) limit place := by
  simp only [matchAt?, run?]

theorem mem_findAll_iff_of_clear_lead (preferred : (both p q).Prefers taken rest kept) (nonempty : taken ≠ [])
    (start : StartsLine (lastOr before none)) (clear : Clear (both (both lineStart p) q) before (taken ++ rest))
    (m : Found) :
    m ∈ (both (both lineStart p) q).findAll (before ++ (taken ++ rest)) ∧ m.start = before.length ↔
      m = ⟨before.length, before.length + taken.length, kept⟩ := by
  apply mem_findAll_iff_of_matchAt? (List.append_ne_nil_of_left_ne_nil nonempty rest) _ clear m
  intro limit
  rw [matchAt?_both_assoc, matchAt?_startsLine start]
  exact matchAt?_of_prefers preferred limit before.length (lastOr before none)

end Line

end Find

/-! Parts that take nothing. -/

theorem prefers_one {allowed : Char → Bool} {c : Char} (inside : allowed c = true) (rest : List Char) :
    (one allowed).Prefers [c] rest [] := by
  intro limit p complete done ahead final
  obtain ⟨offset, previous, _, kept⟩ := p
  obtain rfl : _ = c :: rest := ahead
  rw [run?]
  simp only [inside, if_true]
  exact final

theorem prefers_no_more {body : Pattern} {rest : List Char} (absent : ¬ body.Starts rest) :
    (repeated body).Prefers [] rest [] := by
  intro limit p complete done ahead final
  have here : p.rest = rest := ahead
  have same : p.behind [] rest ([] ++ p.kept) = p := by rw [← here]; rfl
  rw [same] at final
  rw [run?]
  cases limit with
  | zero => exact final
  | succ limit =>
    rw [repeatBody]
    simp only [run?_eq_none (here ▸ absent), final]

end CodeDeck.Pattern
