import CodeDeck.Proofs.Pattern
import CodeDeck.Proofs.Text.Lines

/-! A pattern that is looked for at the start of lines only. The search goes through a source line by line: within a
line nothing is found, so that only what a line starts with has to be known of it. -/

namespace CodeDeck.Pattern

open CodeDeck.Text

def StartsLine (previous : Option Char) : Prop := ∀ c, previous = some c → c = '\n'

def EndsLine (rest : List Char) : Prop := ∀ c, rest.head? = some c → c = '\n'

theorem endsLine_nil : EndsLine [] := by
  intro c first
  contradiction

theorem endsLine_newline (rest : List Char) : EndsLine ('\n' :: rest) := by
  intro c first
  exact (Option.some.inj first).symm

theorem endsLine_linesBelow (below : List (List Char)) {rest : List Char} (ends : EndsLine rest) :
    EndsLine (linesBelow below ++ rest) := by
  cases below with
  | nil => exact ends
  | cons line more => exact endsLine_newline _

theorem prefix_of_endsLine {w line rest : List Char} (ends : EndsLine rest) (single : '\n' ∉ w)
    (start : w <+: line ++ rest) : w <+: line := by
  cases rest with
  | nil => rwa [List.append_nil] at start
  | cons d more =>
    obtain rfl : d = '\n' := ends d rfl
    exact (prefix_or_mem start).resolve_right single

theorem lastOr_mem {s : List Char} (nonempty : s ≠ []) (previous : Option Char) :
    ∃ c ∈ s, lastOr s previous = some c := by
  induction s generalizing previous with
  | nil => exact absurd rfl nonempty
  | cons c rest ih =>
    by_cases last : rest = []
    · subst last
      exact ⟨c, List.mem_cons_self, rfl⟩
    · obtain ⟨d, member, same⟩ := ih last (some c)
      exact ⟨d, List.mem_cons_of_mem _ member, same⟩

theorem startsLine_linesAbove (above : List (List Char)) {previous : Option Char} (start : StartsLine previous) :
    StartsLine (lastOr (linesAbove above) previous) := by
  induction above generalizing previous with
  | nil => exact start
  | cons line rest ih =>
    have newline : StartsLine (lastOr (line ++ ['\n']) previous) := by
      rw [lastOr_append]
      intro c last
      exact (Option.some.inj last).symm
    rw [linesAbove, List.flatMap_cons, lastOr_append]
    exact ih newline

/-! One place. -/

section Place

variable {p : Pattern} {limit : Nat} {place : Place}

theorem matchAt?_inLine {c : Char} (behind : place.previous = some c) (inside : c ≠ '\n') :
    matchAt? (both lineStart p) limit place = none := by
  have within : place.atLineStart = false := by simpa [Place.atLineStart, behind] using inside
  simp [matchAt?, run?, within]

theorem matchAt?_startsLine (start : StartsLine place.previous) :
    matchAt? (both lineStart p) limit place = matchAt? p limit place := by
  have outside : place.atLineStart = true := by
    unfold Place.atLineStart
    cases behind : place.previous with
    | none => rfl
    | some c => exact beq_iff_eq.2 (start c behind)
  simp [matchAt?, run?, outside]

theorem matchAt?_line_eq_none (absent : ¬ p.Starts place.rest) :
    matchAt? (both lineStart p) limit place = none := by
  apply matchAt?_eq_none
  intro starts
  obtain ⟨taken, rest, whole, rfl, more⟩ := starts.both
  rw [List.nil_append] at whole
  exact absent (whole ▸ more)

theorem startsLine_of_run? {done : Place} {complete : Place → Option Place}
    (found : run? limit (.both .lineStart p) place complete = some done) :
    StartsLine place.previous ∧ run? limit p place complete = some done := by
  have step : (if place.atLineStart then run? limit p place complete else none) = some done := found
  split at step
  · next outside =>
    refine ⟨fun c behind => ?_, step⟩
    simpa [Place.atLineStart, behind] using outside
  · contradiction

end Place

/-! The search through lines. -/

/-- Nothing of the pattern starts with the line, whatever comes below. -/
structure Passes (p : Pattern) (line : List Char) : Prop where
  single : '\n' ∉ line
  absent : ∀ rest, EndsLine rest → ¬ p.Starts (line ++ rest)

section Search

variable {p : Pattern} {limit : Nat} {found : List Found}

theorem findFrom_inLine {s : List Char} {c : Char} (single : '\n' ∉ s) (inside : c ≠ '\n') (offset : Nat)
    (rest : List Char) :
    findFrom (both lineStart p) limit 0 offset (some c) found (s ++ rest) =
      findFrom (both lineStart p) limit 0 (offset + s.length) (lastOr s (some c)) found rest := by
  induction s generalizing offset c with
  | nil => rfl
  | cons d behind ih =>
    rw [List.mem_cons, not_or] at single
    have none : matchAt? (both lineStart p) limit ⟨offset, some c, d :: (behind ++ rest), []⟩ = none :=
      matchAt?_inLine rfl inside
    rw [List.cons_append, findFrom, none]
    rw [ih single.2 (Ne.symm single.1), List.length_cons, Nat.add_assoc, Nat.add_comm 1]
    rfl

theorem findFrom_line {line rest : List Char} (passes : p.Passes line) (ends : EndsLine rest) (offset : Nat)
    (previous : Option Char) :
    findFrom (both lineStart p) limit 0 offset previous found (line ++ rest) =
      findFrom (both lineStart p) limit 0 (offset + line.length) (lastOr line previous) found rest := by
  cases line with
  | nil => rfl
  | cons c behind =>
    obtain ⟨first, others⟩ := not_or.1 (mt List.mem_cons.2 passes.single)
    have none : matchAt? (both lineStart p) limit ⟨offset, previous, c :: (behind ++ rest), []⟩ = none :=
      matchAt?_line_eq_none (passes.absent rest ends)
    rw [List.cons_append, findFrom, none]
    rw [findFrom_inLine others (Ne.symm first), List.length_cons, Nat.add_assoc, Nat.add_comm 1]
    rfl

section Lines

variable (blank : p.Passes [])
include blank

theorem findFrom_newline (offset : Nat) (previous : Option Char) (rest : List Char) :
    findFrom (both lineStart p) limit 0 offset previous found ('\n' :: rest) =
      findFrom (both lineStart p) limit 0 (offset + 1) (some '\n') found rest := by
  have none : matchAt? (both lineStart p) limit ⟨offset, previous, '\n' :: rest, []⟩ = none :=
    matchAt?_line_eq_none (blank.absent ('\n' :: rest) (endsLine_newline rest))
  rw [findFrom, none]

theorem findFrom_linesAbove {above : List (List Char)} (passes : ∀ line ∈ above, p.Passes line) (offset : Nat)
    (previous : Option Char) (rest : List Char) :
    findFrom (both lineStart p) limit 0 offset previous found (linesAbove above ++ rest) =
      findFrom (both lineStart p) limit 0 (offset + (linesAbove above).length) (lastOr (linesAbove above) previous)
        found rest := by
  induction above generalizing offset previous with
  | nil => rfl
  | cons line more ih =>
    obtain ⟨first, others⟩ := List.forall_mem_cons.1 passes
    have whole : linesAbove (line :: more) = line ++ '\n' :: linesAbove more := by simp [linesAbove]
    rw [whole, List.append_assoc, List.cons_append, findFrom_line first (endsLine_newline _),
      findFrom_newline blank, ih others, lastOr_append, List.length_append, List.length_cons]
    congr 1
    omega

theorem findFrom_linesBelow {below : List (List Char)} (passes : ∀ line ∈ below, p.Passes line) (offset : Nat)
    (previous : Option Char) {rest : List Char} (ends : EndsLine rest) :
    findFrom (both lineStart p) limit 0 offset previous found (linesBelow below ++ rest) =
      findFrom (both lineStart p) limit 0 (offset + (linesBelow below).length) (lastOr (linesBelow below) previous)
        found rest := by
  induction below generalizing offset previous with
  | nil => rfl
  | cons line more ih =>
    obtain ⟨first, others⟩ := List.forall_mem_cons.1 passes
    have whole : linesBelow (line :: more) = '\n' :: (line ++ linesBelow more) := by simp [linesBelow]
    rw [whole, List.cons_append, List.append_assoc, findFrom_newline blank,
      findFrom_line first (endsLine_linesBelow more ends), ih others, List.length_cons, List.length_append]
    congr 1
    · omega
    · rw [lastOr, lastOr_append]

end Lines

theorem findFrom_headLine {taken tail rest : List Char} {kept : List (Nat × List Char)}
    (preferred : p.Prefers taken (tail ++ rest) kept) (nonempty : taken ≠ []) (single : '\n' ∉ taken ++ tail)
    (offset : Nat) {previous : Option Char} (start : StartsLine previous) :
    findFrom (both lineStart p) limit 0 offset previous found ((taken ++ tail) ++ rest) =
      findFrom (both lineStart p) limit 0 (offset + (taken ++ tail).length) (lastOr (taken ++ tail) previous)
        (⟨offset, offset + taken.length, kept⟩ :: found) rest := by
  have apart := mt List.mem_append.2 single
  obtain ⟨last, member, behind⟩ := lastOr_mem nonempty previous
  have inside : last ≠ '\n' := by
    rintro rfl
    exact apart (.inl member)
  obtain ⟨c, more, rfl⟩ := List.exists_cons_of_ne_nil nonempty
  have matched : matchAt? (both lineStart p) limit ⟨offset, previous, c :: (more ++ (tail ++ rest)), []⟩ =
      some ⟨offset, offset + (c :: more).length, kept⟩ := by
    rw [matchAt?_startsLine start]
    exact matchAt?_of_prefers preferred limit offset previous
  have left : offset + (c :: more).length - offset - 1 = more.length := by
    rw [List.length_cons]
    omega
  have passed : lastOr more (some c) = some last := behind
  rw [List.append_assoc, List.cons_append, findFrom, matched]
  simp only [left]
  rw [findFrom_skip, passed, findFrom_inLine (fun member => apart (.inr member)) inside, ← behind, ← lastOr_append,
    List.length_append, List.length_cons]
  congr 1
  omega

end Search

end CodeDeck.Pattern
