import CodeDeck.Proofs.Scan.Indent
import Mathlib.Data.List.DropRight

/-! The extent of a block by indentation, told line by line. Its header goes on while more brackets are opened than closed;
its body ends with the last line with ink in front of the first such line that is indented less than the first one. -/

namespace CodeDeck.Scan

open CodeDeck.Text

def span (ls : List (List Char)) (start stop : Nat) : List (List Char) := (ls.drop start).take (stop - start)

def codeOf (ls : List (List Char)) : List Char := ls.flatMap (List.takeWhile (· != '#'))

/-- No more round and square brackets are opened than closed. -/
def Closed (ls : List (List Char)) : Prop :=
  (codeOf ls).count '(' + (codeOf ls).count '[' ≤ (codeOf ls).count ')' + (codeOf ls).count ']'

instance (ls : List (List Char)) : Decidable (Closed ls) := inferInstanceAs (Decidable (_ ≤ _))

/-- The header that starts at line `start` ends at the first line at which it is closed, at once if it never is. -/
inductive HeaderEnd (ls : List (List Char)) (start : Nat) : Nat → Prop
  | closes {stop : Nat} (after : start ≤ stop) (inside : stop < ls.length) (closed : Closed (span ls start (stop + 1)))
      (first : ∀ i, start ≤ i → i < stop → ¬ Closed (span ls start (i + 1))) : HeaderEnd ls start stop
  | never (open_ : ∀ i, start ≤ i → i < ls.length → ¬ Closed (span ls start (i + 1))) : HeaderEnd ls start start

def firstInked? (ls : List (List Char)) (i : Nat) : Option (List Char) := (ls.drop i).find? fun line => !allBlank line

/-- The body that starts at line `start` ends in front of line `stop`. -/
structure BodyEnd (ls : List (List Char)) (width start stop : Nat) : Prop where
  after : start < stop
  inked : ∃ line, ls[stop - 1]? = some line ∧ allBlank line = false
  deep : ∀ line ∈ span ls start stop, allBlank line = true ∨ width ≤ indentWidth line
  shallow : Shallow width (ls.drop stop)

/-- The block whose header starts at line `start` reaches up to, and not through, the given line. -/
inductive Extent (ls : List (List Char)) (start : Nat) : Nat → Prop
  | body {top first : List Char} {header stop : Nat} (stands : ls[start]? = some top) (ends : HeaderEnd ls start header)
      (opens : firstInked? ls (header + 1) = some first) (deeper : indentWidth top < indentWidth first)
      (whole : BodyEnd ls (indentWidth first) (header + 1) stop) : Extent ls start stop
  | bare {top : List Char} {header : Nat} (stands : ls[start]? = some top) (ends : HeaderEnd ls start header)
      (flat : ∀ first, firstInked? ls (header + 1) = some first → indentWidth first ≤ indentWidth top) :
      Extent ls start (header + 1)

variable {ls : List (List Char)} {start stop : Nat}

/-! The header. -/

def balance (ls : List (List Char)) : Int :=
  ((codeOf ls).count '(' + (codeOf ls).count '[' : Nat) - ((codeOf ls).count ')' + (codeOf ls).count ']' : Nat)

theorem closed_iff : Closed ls ↔ balance ls ≤ 0 := by
  rw [Closed, balance]
  omega

theorem balance_cons (line : List Char) (rest : List (List Char)) :
    balance (line :: rest) = bracketBalance line + balance rest := by
  simp only [balance, bracketBalance, codeOf, List.flatMap_cons, List.count_append]
  omega

theorem exists_of_headerEnd? {depth : Int} {i : Nat} (found : headerEnd? depth i ls = some stop) :
    ∃ n, stop = i + n ∧ n < ls.length ∧ depth + balance (ls.take (n + 1)) ≤ 0 ∧
      ∀ m, m < n → 0 < depth + balance (ls.take (m + 1)) := by
  induction ls generalizing depth i with
  | nil => contradiction
  | cons line rest ih =>
    have single : balance (List.take 1 (line :: rest)) = bracketBalance line := by
      rw [List.take_succ_cons, List.take_zero, balance_cons]
      exact Int.add_zero _
    simp only [headerEnd?] at found
    split at found
    · next closes =>
      refine ⟨0, (Option.some.inj found).symm, Nat.succ_pos _, ?_, fun m less => absurd less (Nat.not_lt_zero m)⟩
      rw [single]
      exact closes
    · next opens =>
      obtain ⟨n, rfl, inside, closed, before⟩ := ih found
      refine ⟨n + 1, by omega, Nat.succ_lt_succ inside, ?_, ?_⟩
      · rw [List.take_succ_cons, balance_cons]
        omega
      · intro m less
        cases m with
        | zero =>
          rw [single]
          omega
        | succ m =>
          have later := before m (by omega)
          rw [List.take_succ_cons, balance_cons]
          omega

theorem opened_of_headerEnd? {depth : Int} {i : Nat} (none : headerEnd? depth i ls = none) (m : Nat)
    (inside : m < ls.length) : 0 < depth + balance (ls.take (m + 1)) := by
  induction ls generalizing depth i m with
  | nil => contradiction
  | cons line rest ih =>
    simp only [headerEnd?] at none
    split at none
    · contradiction
    · next opens =>
      rw [List.take_succ_cons, balance_cons]
      cases m with
      | zero =>
        rw [List.take_zero]
        show 0 < depth + (bracketBalance line + 0)
        omega
      | succ m =>
        have later := ih none m (Nat.lt_of_succ_lt_succ inside)
        omega

theorem span_succ (ls : List (List Char)) (start n : Nat) :
    span ls start (start + n + 1) = (ls.drop start).take (n + 1) := by
  rw [span, Nat.add_assoc, Nat.add_sub_cancel_left]

theorem isHeaderEnd (ls : List (List Char)) (start : Nat) : HeaderEnd ls start (headerEnd ls start) := by
  unfold headerEnd
  cases found : headerEnd? 0 start (ls.drop start) with
  | some stop =>
    obtain ⟨n, rfl, inside, closed, before⟩ := exists_of_headerEnd? found
    rw [List.length_drop] at inside
    rw [Option.getD_some]
    refine .closes (Nat.le_add_right ..) (by omega) ?_ ?_
    · rw [span_succ, closed_iff]
      omega
    · intro i after less
      obtain ⟨m, rfl⟩ := Nat.exists_eq_add_of_le after
      have open_ := before m (by omega)
      rw [span_succ, closed_iff]
      omega
  | none =>
    apply HeaderEnd.never
    intro i after inside
    obtain ⟨m, rfl⟩ := Nat.exists_eq_add_of_le after
    have open_ := opened_of_headerEnd? found m (by rw [List.length_drop]; omega)
    rw [span_succ, closed_iff]
    omega

theorem HeaderEnd.unique {stop' : Nat} (ends : HeaderEnd ls start stop) (ends' : HeaderEnd ls start stop') :
    stop = stop' := by
  cases ends with
  | closes after inside closed first =>
    cases ends' with
    | closes after' _ closed' first' =>
      rcases Nat.lt_trichotomy stop stop' with before | same | behind
      · exact absurd closed (first' stop after before)
      · exact same
      · exact absurd closed' (first stop' after' behind)
    | never open_ => exact absurd closed (open_ stop after inside)
  | never open_ =>
    cases ends' with
    | closes after' inside' closed' _ => exact absurd closed' (open_ stop' after' inside')
    | never _ => rfl

/-! The body. -/

theorem span_append (ls : List (List Char)) {middle : Nat} (after : start ≤ middle) (before : middle ≤ stop) :
    span ls start stop = span ls start middle ++ span ls middle stop := by
  have below : ls.drop middle = (ls.drop start).drop (middle - start) := by
    rw [List.drop_drop, Nat.add_sub_cancel' after]
  have length : stop - start = (middle - start) + (stop - middle) := by omega
  rw [span, span, span, below, length, List.take_add]

theorem span_append_drop (ls : List (List Char)) (after : start ≤ stop) :
    span ls start stop ++ ls.drop stop = ls.drop start := by
  have below : ls.drop stop = (ls.drop start).drop (stop - start) := by
    rw [List.drop_drop, Nat.add_sub_cancel' after]
  rw [span, below, List.take_append_drop]

theorem getLast?_span (after : start < stop) (inside : stop ≤ ls.length) :
    (span ls start stop).getLast? = ls[stop - 1]? := by
  have length : (span ls start stop).length = stop - start := by
    rw [span, List.length_take, List.length_drop]
    omega
  rw [List.getLast?_eq_getElem?, length, span, List.getElem?_take_of_lt (by omega), List.getElem?_drop]
  congr 1
  omega

theorem bodyLines_of_bodyEnd {width : Nat} (whole : BodyEnd ls width start stop) :
    bodyLines width (ls.drop start) = span ls start stop := by
  obtain ⟨last, stands, inked⟩ := whole.inked
  have inside : stop ≤ ls.length := by
    have some := (List.getElem?_eq_some_iff.1 stands).1
    have after := whole.after
    omega
  rw [← span_append_drop ls (Nat.le_of_lt whole.after)]
  apply bodyLines_deep whole.deep _ whole.shallow
  intro line final
  rw [getLast?_span whole.after inside, stands] at final
  exact Option.some.inj final ▸ inked

theorem dropBlankTail_eq (ls : List (List Char)) : dropBlankTail ls = ls.rdropWhile allBlank := rfl

theorem deep_of_mem_bodyLines {width : Nat} {below : List (List Char)} {line : List Char}
    (member : line ∈ bodyLines width below) : allBlank line = true ∨ width ≤ indentWidth line := by
  have taken := List.mem_takeWhile_imp ((List.rdropWhile_prefix allBlank _).subset member)
  simpa using taken

theorem inked_of_getLast?_bodyLines {width : Nat} {below : List (List Char)} {line : List Char}
    (last : (bodyLines width below).getLast? = some line) : allBlank line = false := by
  rw [bodyLines, dropBlankTail_eq] at last
  have nonempty : (below.takeWhile fun line => allBlank line || width ≤ indentWidth line).rdropWhile allBlank ≠ [] := by
    intro empty
    rw [empty] at last
    contradiction
  rw [List.getLast?_eq_getLast_of_ne_nil nonempty] at last
  rw [← Option.some.inj last]
  exact Bool.eq_false_iff.2 (List.rdropWhile_last_not _ _ nonempty)

theorem exists_behind_bodyLines (width : Nat) (below : List (List Char)) :
    ∃ behind, below = bodyLines width below ++ behind ∧ Shallow width behind := by
  let deep (line : List Char) : Bool := allBlank line || width ≤ indentWidth line
  refine ⟨(below.takeWhile deep).rtakeWhile allBlank ++ below.dropWhile deep, ?_, ?_⟩
  · rw [bodyLines, dropBlankTail_eq, ← List.append_assoc, List.rdropWhile_append_rtakeWhile,
      List.takeWhile_append_dropWhile]
  · intro line found
    have blanks : ((below.takeWhile deep).rtakeWhile allBlank).find? (fun line => !allBlank line) = none := by
      rw [List.find?_eq_none]
      intro other member
      simp [List.mem_rtakeWhile_imp member]
    rw [List.find?_append, blanks, Option.none_or] at found
    have kept := List.head?_dropWhile_not deep below
    cases rest : below.dropWhile deep with
    | nil =>
      rw [rest] at found
      contradiction
    | cons next more =>
      rw [rest, List.head?_cons] at kept
      obtain ⟨inked, less⟩ : allBlank next = false ∧ indentWidth next < width := by simpa [deep] using kept
      rw [rest, List.find?_cons_of_pos (by simp [inked])] at found
      exact Option.some.inj found ▸ less

theorem exists_bodyEnd {first : List Char} (opens : firstInked? ls start = some first) :
    ∃ stop, BodyEnd ls (indentWidth first) start stop := by
  obtain ⟨behind, whole, shallow⟩ := exists_behind_bodyLines (indentWidth first) (ls.drop start)
  have deep := @deep_of_mem_bodyLines (indentWidth first) (ls.drop start)
  have inked := @inked_of_getLast?_bodyLines (indentWidth first) (ls.drop start)
  generalize bodyLines (indentWidth first) (ls.drop start) = body at whole deep inked
  have nonempty : body ≠ [] := by
    rintro rfl
    have less : indentWidth first < indentWidth first := shallow first (by rw [← opens, firstInked?, whole]; rfl)
    omega
  have some := List.length_pos_iff.2 nonempty
  have length := congrArg List.length whole
  rw [List.length_drop, List.length_append] at length
  have after : start < start + body.length := by omega
  have same : span ls start (start + body.length) = body := by
    rw [span, Nat.add_sub_cancel_left, whole, List.take_left]
  have rest : ls.drop (start + body.length) = behind := by
    rw [← List.drop_drop, whole, List.drop_left]
  refine ⟨start + body.length, after, ?_, ?_, ?_⟩
  · have final := List.getLast?_eq_getLast_of_ne_nil nonempty
    have stands : (span ls start (start + body.length)).getLast? = ls[start + body.length - 1]? :=
      getLast?_span after (by omega)
    rw [same, final] at stands
    exact ⟨body.getLast nonempty, stands.symm, inked final⟩
  · rw [same]
    exact fun line => deep
  · rw [rest]
    exact shallow

/-! The block. -/

section Block

variable {top first : List Char} (many : 2 ≤ ls.length) (stands : ls[start]? = some top)
include many stands

theorem indentBlock?_deeper (opens : firstInked? ls (headerEnd ls start + 1) = some first)
    (deeper : indentWidth top < indentWidth first) :
    indentBlock? ls start = some (joinLines (span ls start (headerEnd ls start + 1) ++
      bodyLines (indentWidth first) (ls.drop (headerEnd ls start + 1)))) := by
  rw [firstInked?] at opens
  rw [indentBlock?, if_neg (by omega), stands]
  simp only [opens, if_neg (Nat.not_le_of_lt deeper)]
  rfl

theorem indentBlock?_flat
    (flat : ∀ first, firstInked? ls (headerEnd ls start + 1) = some first → indentWidth first ≤ indentWidth top) :
    indentBlock? ls start = some (joinLines (span ls start (headerEnd ls start + 1))) := by
  rw [indentBlock?, if_neg (by omega), stands]
  cases opens : firstInked? ls (headerEnd ls start + 1) with
  | none =>
    rw [firstInked?] at opens
    simp only [opens, if_pos (Nat.zero_le _)]
    rfl
  | some first =>
    have le := flat first opens
    rw [firstInked?] at opens
    simp only [opens, if_pos le]
    rfl

/-- The block found at a line has the extent of the block that starts there. -/
theorem indentBlock?_extent :
    (∃ stop, Extent ls start stop) ∧
      ∀ stop, Extent ls start stop → indentBlock? ls start = some (joinLines (span ls start stop)) := by
  constructor
  · by_cases deeper : ∃ first, firstInked? ls (headerEnd ls start + 1) = some first ∧ indentWidth top < indentWidth first
    · obtain ⟨first, opens, less⟩ := deeper
      obtain ⟨stop, whole⟩ := exists_bodyEnd opens
      exact ⟨stop, .body stands (isHeaderEnd ls start) opens less whole⟩
    · refine ⟨headerEnd ls start + 1, .bare stands (isHeaderEnd ls start) ?_⟩
      intro first opens
      exact Nat.le_of_not_lt fun less => deeper ⟨first, opens, less⟩
  · intro stop extent
    cases extent with
    | body stands' ends opens deeper whole =>
      obtain rfl := ends.unique (isHeaderEnd ls start)
      obtain rfl := Option.some.inj (stands.symm.trans stands')
      rw [indentBlock?_deeper many stands opens deeper, bodyLines_of_bodyEnd whole, ← span_append]
      · exact Nat.le_succ_of_le (le_headerEnd ls start)
      · exact Nat.le_of_lt whole.after
    | bare stands' ends flat =>
      obtain rfl := ends.unique (isHeaderEnd ls start)
      obtain rfl := Option.some.inj (stands.symm.trans stands')
      exact indentBlock?_flat many stands flat

end Block

def wrappedHeader : List (List Char) :=
  ["def f(  # (", "  a):", "", "    return a", " ", "b = 1"].map String.toList

theorem wrapped_header_extent :
    (2 ≤ wrappedHeader.length ∧ wrappedHeader[0]? = some "def f(  # (".toList) ∧ Extent wrappedHeader 0 4 ∧
      indentBlock? wrappedHeader 0 = some "def f(  # (\n  a):\n\n    return a".toList := by
  have many : 2 ≤ wrappedHeader.length := by decide
  have stands : wrappedHeader[0]? = some "def f(  # (".toList := rfl
  have ends : HeaderEnd wrappedHeader 0 1 := by
    refine .closes (by decide) (by decide) (by decide) ?_
    intro i _ less
    obtain rfl : i = 0 := by omega
    decide
  have opens : firstInked? wrappedHeader 2 = some "    return a".toList := by decide
  have whole : BodyEnd wrappedHeader (indentWidth "    return a".toList) 2 4 :=
    { after := by decide
      inked := ⟨"    return a".toList, rfl, by decide⟩
      deep := by decide
      shallow := by
        intro line found
        have below : (wrappedHeader.drop 4).find? (fun line => !allBlank line) = some "b = 1".toList := by decide
        obtain rfl := Option.some.inj (below.symm.trans found)
        decide }
  have extent : Extent wrappedHeader 0 4 := .body stands ends opens (by decide) whole
  have text : joinLines (span wrappedHeader 0 4) = "def f(  # (\n  a):\n\n    return a".toList := by decide
  refine ⟨⟨many, stands⟩, extent, ?_⟩
  rw [← text]
  exact (indentBlock?_extent many stands).2 4 extent

end CodeDeck.Scan
