import CodeDeck.Scan.Body
import Mathlib.Data.List.Infix

/-! The brace that opens a body: the first one of the text, and none behind a terminator. -/

namespace CodeDeck.Scan

open CodeDeck.Text

variable {c : Char} {s lead : List Char}

theorem indexFrom?_single (absent : c ∉ lead) (i : Nat) (rest : List Char) :
    indexFrom? [c] i (lead ++ c :: rest) = some (i + lead.length) := by
  induction lead generalizing i with
  | nil => simp [indexFrom?]
  | cons d more ih =>
    obtain ⟨other, absent⟩ := not_or.1 (mt List.mem_cons.2 absent)
    have passed : ¬ [c].isPrefixOf (d :: (more ++ c :: rest)) = true := by simpa using other
    rw [List.cons_append, indexFrom?, if_neg passed, ih absent, List.length_cons]
    congr 1
    omega

theorem indexFrom?_eq_none (absent : c ∉ s) (i : Nat) : indexFrom? [c] i s = none := by
  induction s generalizing i with
  | nil => rfl
  | cons d more ih =>
    obtain ⟨other, absent⟩ := not_or.1 (mt List.mem_cons.2 absent)
    have passed : ¬ [c].isPrefixOf (d :: more) = true := by simpa using other
    rw [indexFrom?, if_neg passed, ih absent]

theorem index?_single (absent : c ∉ lead) (before rest : List Char) :
    index? [c] (before ++ (lead ++ c :: rest)) before.length = some (before.length + lead.length) := by
  rw [index?, List.drop_left, indexFrom?_single absent]

theorem index?_eq_some {c : Char} {s : List Char} {start k : Nat} (found : index? [c] s start = some k) :
    ∃ lead rest, s.drop start = lead ++ c :: rest ∧ c ∉ lead ∧ k = start + lead.length := by
  rw [index?] at found
  by_cases member : c ∈ s.drop start
  · obtain ⟨lead, rest, same, absent⟩ := List.eq_append_cons_of_mem member
    rw [same, indexFrom?_single absent] at found
    exact ⟨lead, rest, same, absent, (Option.some.inj found).symm⟩
  · rw [indexFrom?_eq_none member] at found
    contradiction

theorem exists_indexFrom?_le {needle s : List Char} {n : Nat} (stands : needle <+: s.drop n) (i : Nat) :
    ∃ k, indexFrom? needle i s = some (i + k) ∧ k ≤ n := by
  induction s generalizing n i with
  | nil =>
    rw [List.drop_nil] at stands
    have empty : needle = [] := List.prefix_nil.1 stands
    exact ⟨0, by simp [indexFrom?, empty], Nat.zero_le n⟩
  | cons c rest ih =>
    rw [indexFrom?]
    by_cases here : needle.isPrefixOf (c :: rest) = true
    · exact ⟨0, by rw [if_pos here]; rfl, Nat.zero_le n⟩
    · cases n with
      | zero => exact absurd (List.isPrefixOf_iff_prefix.2 stands) here
      | succ n =>
        obtain ⟨k, found, le⟩ := ih stands (i + 1)
        refine ⟨k + 1, ?_, Nat.succ_le_succ le⟩
        rw [if_neg here, found]
        congr 1
        omega

theorem contains_single_iff : contains [c] s = true ↔ c ∈ s := by
  constructor
  · intro found
    by_contra absent
    rw [contains, index?, List.drop_zero, indexFrom?_eq_none absent] at found
    contradiction
  · intro member
    obtain ⟨lead, rest, rfl, absent⟩ := List.eq_append_cons_of_mem member
    rw [contains, index?, List.drop_zero, indexFrom?_single absent]
    rfl

theorem slice_append (before lead rest : List Char) :
    slice (before ++ (lead ++ rest)) before.length (before.length + lead.length) = lead := by
  rw [slice, List.drop_left, Nat.add_sub_cancel_left, List.take_left]

theorem bodyBrace?_first (absent : '\x7b' ∉ lead) {marks : List Char} (unmarked : ∀ mark ∈ marks, mark ∉ lead)
    (before rest : List Char) :
    bodyBrace? (before ++ (lead ++ '\x7b' :: rest)) before.length (marks.map fun mark => [mark]) =
      some (before.length + lead.length) := by
  have none : ((marks.map fun mark => [mark]).any fun t => contains t lead) = false := by
    rw [List.any_eq_false]
    intro t member
    obtain ⟨mark, inside, rfl⟩ := List.mem_map.1 member
    rw [contains_single_iff]
    exact unmarked mark inside
  rw [bodyBrace?, index?_single absent]
  simp only [slice_append, none, Bool.false_eq_true, if_false]

theorem bodyBrace?_eq_none {mark : Char} (absent : '\x7b' ∉ lead) (other : mark ≠ '\x7b') {marks : List Char}
    (member : mark ∈ marks) (before rest : List Char) :
    bodyBrace? (before ++ (lead ++ mark :: rest)) before.length (marks.map fun mark => [mark]) = none := by
  by_cases braced : '\x7b' ∈ rest
  · obtain ⟨more, behind, rfl, free⟩ := List.eq_append_cons_of_mem braced
    have absent' : '\x7b' ∉ lead ++ mark :: more := by
      simp [absent, free, other.symm]
    have stands : lead ++ mark :: (more ++ '\x7b' :: behind) = (lead ++ mark :: more) ++ '\x7b' :: behind := by simp
    have marked : ((marks.map fun mark => [mark]).any fun t => contains t (lead ++ mark :: more)) = true := by
      rw [List.any_eq_true]
      exact ⟨[mark], List.mem_map.2 ⟨mark, member, rfl⟩, contains_single_iff.2 (by simp)⟩
    rw [bodyBrace?, stands, index?_single absent']
    simp only [slice_append, marked, if_true]
  · have absent' : '\x7b' ∉ lead ++ mark :: rest := by
      simp [absent, braced, other.symm]
    rw [bodyBrace?, index?, List.drop_left, indexFrom?_eq_none absent']

end CodeDeck.Scan
