import CodeDeck.Generate
import CodeDeck.Proofs.Pattern

/-! Calls of a name in a text: the places at which the name stands as a whole word with a parenthesis right behind it.
These are what is counted for the recursion of a function; one of them can be the declaration itself. -/

namespace CodeDeck.Generate

open CodeDeck.Text CodeDeck.Pattern

/-- Behind `previous` the text starts with the whole word `name`, and a parenthesis follows at once. -/
def CallAt (name : List Char) (previous : Option Char) (s : List Char) : Prop :=
  previous.any isWord = false ∧ name ++ ['('] <+: s

instance (name : List Char) (previous : Option Char) (s : List Char) : Decidable (CallAt name previous s) :=
  inferInstanceAs (Decidable (_ ∧ _))

def Called (name : List Char) (previous : Option Char) (s : List Char) : Prop :=
  ∃ front rest, s = front ++ rest ∧ CallAt name (lastOr front previous) rest

/-- The number of places at which the name is called in a text behind `previous`. -/
def calls (name : List Char) : (previous : Option Char) → List Char → Nat
  | _, [] => 0
  | previous, c :: rest => calls name (some c) rest + if CallAt name previous (c :: rest) then 1 else 0

section Calls

variable {name : List Char} {previous : Option Char} {s rest : List Char}

theorem not_callAt_of_notMem (absent : '(' ∉ s) : ¬ CallAt name previous s :=
  fun call => absent (call.2.subset (by simp))

theorem calls_of_notMem (absent : '(' ∉ s) : calls name previous s = 0 := by
  induction s generalizing previous with
  | nil => rfl
  | cons c more ih =>
    rw [calls, ih (List.not_mem_of_not_mem_cons absent), if_neg (not_callAt_of_notMem absent)]

theorem calls_pos_iff : 0 < calls name previous s ↔ Called name previous s := by
  induction s generalizing previous with
  | nil =>
    constructor
    · intro positive
      exact absurd positive (Nat.lt_irrefl 0)
    · rintro ⟨front, rest, same, call⟩
      obtain ⟨rfl, rfl⟩ := List.append_eq_nil_iff.1 same.symm
      exact absurd call.2 (by simp)
  | cons c more ih =>
    rw [calls, Nat.add_pos_iff_pos_or_pos, ih]
    constructor
    · rintro (⟨front, rest, rfl, call⟩ | here)
      · exact ⟨c :: front, rest, rfl, call⟩
      · by_cases call : CallAt name previous (c :: more)
        · exact ⟨[], c :: more, rfl, call⟩
        · rw [if_neg call] at here
          contradiction
    · rintro ⟨front, rest, same, call⟩
      cases front with
      | nil =>
        obtain rfl : c :: more = rest := same
        have here : CallAt name previous (c :: more) := call
        rw [if_pos here]
        exact .inr Nat.one_pos
      | cons d others =>
        obtain ⟨rfl, rfl⟩ := List.cons.inj same
        exact .inl ⟨others, rest, rfl, call⟩

variable (some : name ≠ []) (word : ∀ c ∈ name, isWord c = true)
include some word

theorem calls_cons_of_not_word {c : Char} (plain : isWord c = false) :
    calls name previous (c :: rest) = calls name (Option.some c) rest := by
  obtain ⟨first, letters, rfl⟩ := List.exists_cons_of_ne_nil some
  have none : ¬ CallAt (first :: letters) previous (c :: rest) := by
    intro call
    obtain rfl : first = c := (List.cons_prefix_cons.1 call.2).1
    rw [word first List.mem_cons_self] at plain
    contradiction
  rw [calls, if_neg none, Nat.add_zero]

omit some word in
theorem calls_within {w : List Char} {p : Char} (letters : ∀ c ∈ w, isWord c = true) (letter : isWord p = true) :
    calls name (Option.some p) (w ++ rest) = calls name (lastOr w (Option.some p)) rest := by
  induction w generalizing p with
  | nil => rfl
  | cons c more ih =>
    obtain ⟨first, others⟩ := List.forall_mem_cons.1 letters
    have none : ¬ CallAt name (Option.some p) (c :: (more ++ rest)) := by
      rintro ⟨apart, _⟩
      have inner : isWord p = false := apart
      rw [letter] at inner
      contradiction
    rw [List.cons_append, calls, if_neg none, ih others first]
    rfl

theorem calls_of_callAt (call : CallAt name previous s) :
    calls name previous s = calls name (Option.some '(') (s.drop (name.length + 1)) + 1 := by
  obtain ⟨behind, rfl⟩ := call.2
  have left : (name ++ ['('] ++ behind).drop (name.length + 1) = behind := by
    apply List.drop_left'
    rw [List.length_append, List.length_singleton]
  rw [left]
  obtain ⟨first, letters, rfl⟩ := List.exists_cons_of_ne_nil some
  obtain ⟨letter, others⟩ := List.forall_mem_cons.1 word
  rw [List.append_assoc, List.cons_append] at call ⊢
  rw [calls, if_pos call, calls_within others letter, List.singleton_append,
    calls_cons_of_not_word some word (by decide)]

theorem callCount_eq (skip : Nat) (previous : Option Char) (s : List Char) :
    callCount name skip previous s = calls name (lastOr (s.take skip) previous) (s.drop skip) := by
  obtain ⟨first, letters, spelled⟩ := List.exists_cons_of_ne_nil some
  -- A call that is counted is skipped to its bracket. `calls` walks through its letters, where no other call starts.
  fun_induction callCount name skip previous s with
  | case1 skip previous => rw [List.drop_nil, calls]
  | case2 skip previous c rest ih => exact ih
  | case3 previous c rest matched ih =>
    obtain ⟨apart, start⟩ := Bool.and_eq_true_iff.1 matched
    rw [List.isPrefixOf_iff_prefix] at start
    have letter : isWord c = true := by
      rw [spelled] at start
      obtain rfl : first = c := (List.cons_prefix_cons.1 start).1
      exact word first (spelled ▸ List.mem_cons_self)
    have call : CallAt name previous (c :: rest) := by
      refine ⟨?_, start⟩
      rw [letter] at apart
      simpa using apart
    obtain ⟨behind, whole⟩ := start
    have last : lastOr (rest.take name.length) (Option.some c) = Option.some '(' := by
      have taken : c :: rest.take name.length = name ++ ['('] := by
        have cut := congrArg (List.take (name.length + 1)) whole
        rwa [List.take_left' (by simp), List.take_succ_cons, eq_comm] at cut
      have same := congrArg (lastOr · previous) taken
      rw [lastOr_append] at same
      exact same
    rw [ih, last]
    exact (calls_of_callAt some word call).symm
  | case4 previous c rest unmatched ih =>
    have none : ¬ CallAt name previous (c :: rest) := by
      rintro ⟨apart, start⟩
      apply unmatched
      have letter : isWord c = true := by
        rw [spelled] at start
        obtain rfl : first = c := (List.cons_prefix_cons.1 start).1
        exact word first (spelled ▸ List.mem_cons_self)
      rw [apart, letter, List.isPrefixOf_iff_prefix.2 start]
      rfl
    rw [ih, List.take_zero, List.drop_zero, List.take_zero, List.drop_zero]
    show calls name (Option.some c) rest = _
    rw [lastOr, calls, if_neg none, Nat.add_zero]

theorem isRecursive_iff (code : List Char) : isRecursive name code = true ↔ 1 < calls name none code := by
  rw [isRecursive, decide_eq_true_eq, callCount_eq some word]
  rfl

/-- Of the calls in a text that declares the name, one is the declaration when a parenthesis follows it at once, and the
others stand behind it. -/
theorem calls_declared {lead : List Char} (absent : '(' ∉ lead)
    (ends : ∀ c, rest.head? = Option.some c → isWord c = false) :
    calls name previous (lead ++ (name ++ rest)) =
      calls name none rest + if CallAt name (lastOr lead previous) (name ++ rest) then 1 else 0 := by
  have free : '(' ∉ name := fun member => absurd (word _ member) (by decide)
  induction lead generalizing previous with
  | nil =>
    have behind (p : Option Char) : calls name p rest = calls name none rest := by
      cases rest with
      | nil => rfl
      | cons c more =>
        rw [calls_cons_of_not_word some word (ends c rfl), calls_cons_of_not_word some word (ends c rfl)]
    obtain ⟨first, letters, spelled⟩ := List.exists_cons_of_ne_nil some
    obtain ⟨letter, others⟩ := List.forall_mem_cons.1 (spelled ▸ word)
    have step : calls name previous (name ++ rest) = calls name (Option.some first) (letters ++ rest) +
        if CallAt name previous (name ++ rest) then 1 else 0 := by
      conv_lhs => rw [spelled]
      rw [List.cons_append, calls, ← List.cons_append, ← spelled]
    rw [List.nil_append, step, calls_within others letter, behind]
    rfl
  | cons c more ih =>
    have none : ¬ CallAt name previous (c :: (more ++ (name ++ rest))) := by
      rintro ⟨_, start⟩
      have long : (name ++ ['(']).length ≤ (c :: more ++ name).length := by
        simp only [List.length_append, List.length_cons, List.length_nil]
        omega
      have whole : (c :: more ++ name) <+: c :: (more ++ (name ++ rest)) := ⟨rest, by simp⟩
      have inside := (List.prefix_of_prefix_length_le start whole long).subset (by simp : '(' ∈ name ++ ['('])
      rcases List.mem_append.1 inside with here | there
      · exact absent here
      · exact free there
    rw [List.cons_append, calls, if_neg none, ih (List.not_mem_of_not_mem_cons absent)]
    rfl

theorem calls_declaration {lead code : List Char} (absent : '(' ∉ lead)
    (stands : code <+: lead ++ (name ++ rest)) (ends : ∀ c, rest.head? = Option.some c → isWord c = false) :
    calls name none code = calls name none (code.drop (lead ++ name).length) +
      if CallAt name (lastOr lead none) (code.drop lead.length) then 1 else 0 := by
  have free : '(' ∉ lead ++ name := by
    rw [List.mem_append, not_or]
    exact ⟨absent, fun member => absurd (word _ member) (by decide)⟩
  rw [← List.append_assoc] at stands
  rcases List.prefix_or_prefix_of_prefix stands (List.prefix_append (lead ++ name) rest) with short | long
  · have none : '(' ∉ code := fun member => free (short.subset member)
    have none' (n : Nat) : '(' ∉ code.drop n := fun member => none (List.mem_of_mem_drop member)
    rw [calls_of_notMem none, calls_of_notMem (none' _), if_neg (not_callAt_of_notMem (none' _))]
  · obtain ⟨more, rfl⟩ := long
    have ends' : ∀ c, more.head? = Option.some c → isWord c = false := by
      intro c first
      apply ends c
      obtain ⟨others, rfl⟩ := (List.prefix_append_right_inj (lead ++ name)).1 stands
      rw [List.head?_append, first]
      rfl
    rw [List.drop_left, List.append_assoc, List.drop_left]
    exact calls_declared some word absent ends'

end Calls

end CodeDeck.Generate
