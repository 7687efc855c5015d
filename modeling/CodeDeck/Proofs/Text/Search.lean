import CodeDeck.Text.Search
import Mathlib.Data.List.Basic
import Mathlib.Data.List.TakeWhile

/-! What a search in a text finds. The part behind the last separator is the one without a separator at the end of the
text, and a text is found in another one when it stands somewhere in it. -/

namespace CodeDeck.Text

section Last

variable {separator : Char} {s : List Char}

theorem notMem_afterLast (separator : Char) (s : List Char) : separator ∉ afterLast separator s := by
  intro member
  have other := List.mem_takeWhile_imp (List.mem_reverse.1 member)
  simp at other

theorem afterLast_of_notMem (free : separator ∉ s) : afterLast separator s = s := by
  have all : s.reverse.takeWhile (· != separator) = s.reverse := by
    rw [List.takeWhile_eq_self_iff]
    intro c member
    exact bne_iff_ne.2 fun same => free (same ▸ List.mem_reverse.1 member)
  rw [afterLast, all, List.reverse_reverse]

theorem afterLast_append (free : separator ∉ s) (front : List Char) :
    afterLast separator (front ++ s) = afterLast separator front ++ s := by
  rw [afterLast, List.reverse_append, List.takeWhile_append_of_pos, List.reverse_append, List.reverse_reverse, afterLast]
  intro c member
  exact bne_iff_ne.2 fun same => free (same ▸ List.mem_reverse.1 member)

theorem afterLast_append_cons (free : separator ∉ s) (front : List Char) :
    afterLast separator (front ++ separator :: s) = s := by
  have ended : afterLast separator (front ++ [separator]) = [] := by simp [afterLast]
  rw [← List.singleton_append, ← List.append_assoc, afterLast_append free, ended, List.nil_append]

theorem afterLast_isSuffix (separator : Char) (s : List Char) : afterLast separator s <:+ s := by
  rw [← List.reverse_prefix, afterLast, List.reverse_reverse]
  exact List.takeWhile_prefix _

theorem exists_append_afterLast (inside : separator ∈ s) :
    ∃ front, s = front ++ separator :: afterLast separator s := by
  obtain ⟨back, front, cut, free⟩ := List.eq_append_cons_of_mem (List.mem_reverse.2 inside)
  obtain rfl : s = front.reverse ++ separator :: back.reverse := by
    rw [← List.reverse_reverse s, cut]
    simp
  rw [← List.mem_reverse] at free
  exact ⟨front.reverse, by rw [afterLast_append_cons free]⟩

end Last

theorem isSome_indexFrom?_iff {needle s : List Char} (i : Nat) :
    (indexFrom? needle i s).isSome = true ↔ needle <:+: s := by
  induction s generalizing i with
  | nil => cases needle <;> simp [indexFrom?]
  | cons c rest ih =>
    rw [indexFrom?, List.infix_cons_iff, ← ih (i + 1), ← List.isPrefixOf_iff_prefix]
    split
    · next starts => simp [starts]
    · next other => simp [other]

theorem contains_iff_isInfix {needle s : List Char} : contains needle s = true ↔ needle <:+: s := by
  rw [contains, index?, isSome_indexFrom?_iff, List.drop_zero]

end CodeDeck.Text
