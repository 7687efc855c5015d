import CodeDeck.Proofs.Pattern

/-! What a search finds is a match at its place, and so a text of the pattern that stands there. -/

namespace CodeDeck.Pattern

variable {p : Pattern} {limit skip offset : Nat} {previous : Option Char} {found : List Found} {s : List Char}
  {m : Found}

theorem exists_place_of_mem_findFrom (member : m ∈ findFrom p limit skip offset previous found s) :
    m ∈ found ∨ ∃ before text, s = before ++ text ∧ text ≠ [] ∧
      matchAt? p limit ⟨offset + before.length, lastOr before previous, text, []⟩ = some m := by
  induction s generalizing skip offset previous found with
  | nil => exact .inl (List.mem_reverse.1 member)
  | cons c rest ih =>
    have later {found' : List Found} {skip' : Nat}
        (deeper : m ∈ findFrom p limit skip' (offset + 1) (some c) found' rest) :
        m ∈ found' ∨ ∃ before text, c :: rest = before ++ text ∧ text ≠ [] ∧
          matchAt? p limit ⟨offset + before.length, lastOr before previous, text, []⟩ = some m := by
      refine (ih deeper).imp_right ?_
      rintro ⟨before, text, rfl, some, matched⟩
      refine ⟨c :: before, text, rfl, some, ?_⟩
      rwa [List.length_cons, Nat.add_comm before.length 1, ← Nat.add_assoc]
    unfold findFrom at member
    split at member
    · exact later member
    · split at member
      · next first matched =>
        rcases later member with here | behind
        · rcases List.mem_cons.1 here with rfl | before
          · exact .inr ⟨[], c :: rest, rfl, List.cons_ne_nil _ _, matched⟩
          · exact .inl before
        · exact .inr behind
      · exact later member

theorem exists_place_of_mem_findAll (member : m ∈ p.findAll s) :
    ∃ before text, s = before ++ text ∧ text ≠ [] ∧
      matchAt? p s.length ⟨before.length, lastOr before none, text, []⟩ = some m := by
  rcases exists_place_of_mem_findFrom member with none | ⟨before, text, same, some, matched⟩
  · contradiction
  · rw [Nat.zero_add] at matched
    exact ⟨before, text, same, some, matched⟩

theorem exists_taken_of_matchAt? {place : Place} (matched : matchAt? p limit place = some m) :
    ∃ taken rest, place.rest = taken ++ rest ∧ p.Takes taken ∧
      m.start = place.offset ∧ m.stop = place.offset + taken.length := by
  obtain ⟨finish, run, rfl⟩ := Option.map_eq_some_iff.1 matched
  obtain ⟨taken, rest, kept, takes, ahead, final⟩ := reaches_of_run? run
  obtain rfl := Option.some.inj final
  exact ⟨taken, rest, ahead, takes, rfl, rfl⟩

theorem exists_taken_of_mem_findAll (member : m ∈ p.findAll s) :
    ∃ before taken rest, s = before ++ (taken ++ rest) ∧ p.Takes taken ∧
      m.start = before.length ∧ m.stop = before.length + taken.length := by
  obtain ⟨before, text, rfl, _, matched⟩ := exists_place_of_mem_findAll member
  obtain ⟨taken, rest, rfl, takes, start, stop⟩ := exists_taken_of_matchAt? matched
  exact ⟨before, taken, rest, rfl, takes, start, stop⟩

/-! The text of a chain of patterns. -/

theorem takes_split {chain : List Pattern} {taken : List Char} (takes : (ofList chain).Takes taken) (n : Nat) :
    ∃ a b, taken = a ++ b ∧ (ofList (chain.take n)).Takes a ∧ (ofList (chain.drop n)).Takes b := by
  induction n generalizing chain taken with
  | zero => exact ⟨[], taken, rfl, rfl, takes⟩
  | succ n ih =>
    cases chain with
    | nil => exact ⟨taken, [], (List.append_nil _).symm, takes, rfl⟩
    | cons first more =>
      cases more with
      | nil => exact ⟨taken, [], (List.append_nil _).symm, by simpa using takes, by simp [ofList, Takes]⟩
      | cons second others =>
        obtain ⟨a, b, rfl, takes, behind⟩ := takes
        obtain ⟨front, back, rfl, inner, last⟩ := ih behind
        refine ⟨a ++ front, back, (List.append_assoc ..).symm, ?_, last⟩
        cases n with
        | zero =>
          obtain rfl : front = [] := inner
          rw [List.append_nil]
          exact takes
        | succ n => exact ⟨a, front, rfl, takes, inner⟩

theorem takes_last {chain : List Pattern} {taken : List Char} (takes : (ofList chain).Takes taken)
    (final : chain.getLast? = some p) : ∃ lead last, taken = lead ++ last ∧ p.Takes last := by
  obtain ⟨front, rfl⟩ := List.getLast?_eq_some_iff.1 final
  obtain ⟨lead, last, same, _, ends⟩ := takes_split takes front.length
  rw [List.drop_left] at ends
  exact ⟨lead, last, same, ends⟩

def Uses (P : Char → Prop) : Pattern → Prop
  | text s => ∀ c ∈ s, P c
  | one own | run own _ | shortRun own => ∀ c, own c = true → P c
  | lineStart => True
  | both first second | either first second => first.Uses P ∧ second.Uses P
  | repeated body | keep _ body => body.Uses P

theorem uses_word {P : Char → Prop} {w : String} (all : ∀ c ∈ w.toList, P c) : (word w).Uses P := all

theorem Uses.optional {P : Char → Prop} (uses : p.Uses P) : (optional p).Uses P :=
  ⟨uses, fun _ none => absurd none List.not_mem_nil⟩

theorem forall_of_takes {P : Char → Prop} {taken : List Char} (takes : p.Takes taken) (uses : p.Uses P) :
    ∀ c ∈ taken, P c := by
  induction p generalizing taken with
  | text s => exact takes ▸ uses
  | one own =>
    obtain ⟨c, inside, rfl⟩ := takes
    exact List.forall_mem_singleton.2 (uses c inside)
  | run own least => exact fun c member => uses c (takes.2 c member)
  | shortRun own => exact fun c member => uses c (takes c member)
  | lineStart =>
    obtain rfl : taken = [] := takes
    exact fun c member => absurd member List.not_mem_nil
  | both first second ih ih' =>
    obtain ⟨a, b, rfl, first, second⟩ := takes
    exact List.forall_mem_append.2 ⟨ih first uses.1, ih' second uses.2⟩
  | either first second ih ih' =>
    rcases takes with first | second
    · exact ih first uses.1
    · exact ih' second uses.2
  | repeated body ih =>
    obtain ⟨parts, rfl, each⟩ := takes
    intro c member
    obtain ⟨part, listed, inside⟩ := List.mem_flatten.1 member
    exact ih (each part listed) uses c inside
  | keep slot body ih => exact ih takes uses

/-! The steps of a match, with what is remembered. -/

variable {place done : Place} {complete : Place → Option Place}

theorem exists_first_of_run? {first second : Pattern}
    (found : run? limit (.both first second) place complete = some done) :
    ∃ taken rest kept, first.Takes taken ∧ place.rest = taken ++ rest ∧
      run? limit second (place.behind taken rest kept) complete = some done := by
  have step : run? limit first place (fun q => run? limit second q complete) = some done := found
  exact reaches_of_run? step

theorem exists_kept_of_run? {slot : Nat} {body : Pattern} (found : run? limit (.keep slot body) place complete = some done) :
    ∃ taken rest kept, body.Takes taken ∧ place.rest = taken ++ rest ∧
      complete (place.behind taken rest ((slot, taken) :: kept)) = some done := by
  obtain ⟨taken, rest, kept, takes, ahead, final⟩ := (reaches_of_run? found : place.Reaches body _ done)
  have read : place.rest.take ((place.behind taken rest kept).offset - place.offset) = taken := by
    rw [ahead, Place.behind, Nat.add_sub_cancel_left, List.take_left]
  dsimp only at final
  rw [read] at final
  exact ⟨taken, rest, kept, takes, ahead, final⟩

theorem exists_run_of_run? {allowed : Char → Bool} {least : Nat}
    (found : run? limit (.run allowed least) place complete = some done) :
    ∃ taken rest, least ≤ taken.length ∧ (∀ c ∈ taken, allowed c = true) ∧ place.rest = taken ++ rest ∧
      complete (place.behind taken rest place.kept) = some done := by
  simp only [run?, offered_eq, firstSome_eq_findSome?] at found
  obtain ⟨q, offered, final⟩ := List.exists_of_findSome?_eq_some found
  rw [List.mem_reverse, List.mem_map] at offered
  obtain ⟨a, member, rfl⟩ := offered
  obtain ⟨start, enough⟩ := length_of_mem_drop_inits member
  obtain ⟨inside, ahead⟩ := of_prefix_takeWhile start
  exact ⟨a, place.rest.drop a.length, enough, inside, ahead, final⟩

theorem exists_last_of_run? {chain : List Pattern} {slot : Nat} {body : Pattern}
    (final : chain.getLast? = some (.keep slot body)) (found : run? limit (ofList chain) place some = some done) :
    ∃ lead taken rest kept, (ofList chain.dropLast).Takes lead ∧ body.Takes taken ∧
      place.rest = lead ++ (taken ++ rest) ∧ done = place.behind (lead ++ taken) rest ((slot, taken) :: kept) := by
  obtain ⟨front, rfl⟩ := List.getLast?_eq_some_iff.1 final
  rw [List.dropLast_concat]
  clear final
  induction front generalizing place with
  | nil =>
    have here : run? limit (.keep slot body) place some = some done := found
    obtain ⟨taken, rest, kept, takes, ahead, last⟩ := exists_kept_of_run? here
    exact ⟨[], taken, rest, kept, rfl, takes, ahead, (Option.some.inj last).symm⟩
  | cons first more ih =>
    have step : run? limit (.both first (ofList (more ++ [.keep slot body]))) place some = some done := by
      cases more with
      | nil => exact found
      | cons second others => exact found
    obtain ⟨a, rest, kept, takes, ahead, behind⟩ := exists_first_of_run? step
    obtain ⟨lead, taken, rest', kept', front, own, next, rfl⟩ := ih behind
    refine ⟨a ++ lead, taken, rest', kept', ?_, own, ?_, ?_⟩
    · cases more with
      | nil =>
        obtain rfl : lead = [] := front
        rw [List.append_nil]
        exact takes
      | cons second others => exact ⟨a, lead, rfl, takes, front⟩
    · rw [ahead, show rest = lead ++ (taken ++ rest') from next, List.append_assoc]
    · rw [Place.behind_behind, List.append_assoc]

def Forgets : Pattern → Prop
  | text _ | one _ | run _ _ | shortRun _ | lineStart => True
  | both first second | either first second => first.Forgets ∧ second.Forgets
  | repeated body => body.Forgets
  | keep _ _ => False

theorem exists_same_of_run? (forgets : p.Forgets) (found : run? limit p place complete = some done) :
    ∃ q, complete q = some done ∧ q.kept = place.kept := by
  induction p generalizing place complete done with
  | text s =>
    obtain ⟨q, taken, final⟩ := Option.bind_eq_some_iff.1 found
    obtain ⟨rest, ahead⟩ := rest_of_takeText taken
    rw [takeText_behind ahead] at taken
    obtain rfl := Option.some.inj taken
    exact ⟨_, final, rfl⟩
  | one allowed =>
    rw [run?] at found
    split at found
    · split at found
      · exact ⟨_, found, rfl⟩
      · contradiction
    · contradiction
  | run allowed least =>
    obtain ⟨taken, rest, _, _, _, final⟩ := exists_run_of_run? found
    exact ⟨_, final, rfl⟩
  | shortRun allowed =>
    simp only [run?, runEnds_eq, firstSome_eq_findSome?] at found
    obtain ⟨q, offered, final⟩ := List.exists_of_findSome?_eq_some found
    rw [List.append_nil, List.reverse_reverse, List.mem_map] at offered
    obtain ⟨a, _, rfl⟩ := offered
    exact ⟨_, final, rfl⟩
  | lineStart =>
    rw [run?] at found
    split at found
    · exact ⟨place, found, rfl⟩
    · contradiction
  | both first second ih ih' =>
    obtain ⟨q, more, same⟩ := ih forgets.1 found
    obtain ⟨q', final, same'⟩ := ih' forgets.2 more
    exact ⟨q', final, same'.trans same⟩
  | either first second ih ih' =>
    rw [run?] at found
    split at found
    · next preferred =>
      obtain rfl := Option.some.inj found
      exact ih forgets.1 preferred
    · exact ih' forgets.2 found
  | repeated body ih =>
    have step (n : Nat) : ∀ place,
        repeatBody (fun q k => run? limit body q k) complete n place = some done →
          ∃ q, complete q = some done ∧ q.kept = place.kept := by
      induction n with
      | zero => exact fun place found => ⟨place, found, rfl⟩
      | succ n again =>
        intro place found
        rw [repeatBody] at found
        split at found
        · next more =>
          obtain rfl := Option.some.inj found
          obtain ⟨q, later, same⟩ := ih forgets more
          split at later
          · obtain ⟨q', final, same'⟩ := again q later
            exact ⟨q', final, same'.trans same⟩
          · contradiction
        · exact ⟨place, found, rfl⟩
    exact step limit place found
  | keep slot body ih => exact forgets.elim

/-- The text that a chain remembers stands behind what its first patterns take, and in front of what the others do. -/
theorem exists_kept_within {front back : List Pattern} {slot : Nat} {body : Pattern} (more : back ≠ [])
    (forgets : (ofList back).Forgets)
    (found : run? limit (ofList (front ++ .keep slot body :: back)) place some = some done) :
    ∃ lead taken behind rest kept, (ofList front).Takes lead ∧ body.Takes taken ∧ (ofList back).Takes behind ∧
      place.rest = lead ++ (taken ++ (behind ++ rest)) ∧ done.kept = (slot, taken) :: kept := by
  induction front generalizing place with
  | nil =>
    obtain ⟨second, others, rfl⟩ := List.exists_cons_of_ne_nil more
    have here : run? limit (.keep slot body) place (fun q => run? limit (ofList (second :: others)) q some) =
        some done := found
    obtain ⟨taken, rest, kept, takes, ahead, last⟩ := exists_kept_of_run? here
    obtain ⟨q, final, same⟩ := exists_same_of_run? forgets last
    obtain ⟨behind, rest', _, takes', ahead', _⟩ := reaches_of_run? last
    obtain rfl := Option.some.inj final
    refine ⟨[], taken, behind, rest', kept, rfl, takes, takes', ?_, same⟩
    rw [ahead, show rest = behind ++ rest' from ahead', List.nil_append]
  | cons first others ih =>
    have step : run? limit (.both first (ofList (others ++ .keep slot body :: back))) place some = some done := by
      cases others with
      | nil => exact found
      | cons second rest => exact found
    obtain ⟨a, rest, kept, takes, ahead, behind⟩ := exists_first_of_run? step
    obtain ⟨lead, taken, after, rest', kept', front, own, last, next, same⟩ := ih behind
    refine ⟨a ++ lead, taken, after, rest', kept', ?_, own, last, ?_, same⟩
    · cases others with
      | nil =>
        obtain rfl : lead = [] := front
        rw [List.append_nil]
        exact takes
      | cons second rest => exact ⟨a, lead, rfl, takes, front⟩
    · rw [ahead, show rest = lead ++ (taken ++ (after ++ rest')) from next, List.append_assoc]

end CodeDeck.Pattern
