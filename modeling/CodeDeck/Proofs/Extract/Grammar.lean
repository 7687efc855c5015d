import CodeDeck.Extract.Grammar
import CodeDeck.Proofs.Pattern

/-! What the building stones of the patterns take: a space, nothing, a name, in front of what cannot belong to them,
or one of several words. -/

namespace CodeDeck.Extract

open CodeDeck.Text CodeDeck.Pattern

theorem prefers_space {least : Nat} {rest : List Char} {c : Char} (enough : least ≤ 1)
    (ahead : rest.head? = some c) (inked : isBlank c = false) :
    (Pattern.run isBlank least).Prefers [' '] rest [] :=
  prefers_run_before (List.forall_mem_singleton.2 (by decide)) enough ahead inked

theorem prefers_no_blank {rest : List Char} {c : Char} (ahead : rest.head? = some c)
    (inked : isBlank c = false) : blanks.Prefers [] rest [] :=
  prefers_run_before (by simp) (Nat.le_refl 0) ahead inked

theorem prefers_name {slot : Nat} {name rest : List Char} (named : name ≠ [])
    (word : ∀ c ∈ name, isWord c = true) (stops : ∀ c, rest.head? = some c → isWord c = false) :
    (Pattern.keep slot Extract.name).Prefers name rest [(slot, name)] := by
  apply Prefers.keep
  exact prefers_run word (List.length_pos_iff.2 named) stops

theorem prefers_name_before {slot : Nat} {name rest : List Char} {c : Char} (named : name ≠ [])
    (word : ∀ c ∈ name, isWord c = true) (ahead : rest.head? = some c) (stops : isWord c = false) :
    (Pattern.keep slot Extract.name).Prefers name rest [(slot, name)] := by
  apply prefers_name named word
  intro d first
  rw [ahead] at first
  exact Option.some.inj first ▸ stops

theorem prefers_anyWord {words : List String} {w : String} (member : w ∈ words)
    (apart : ∀ v ∈ words, v ≠ w → ¬ v.toList <+: w.toList ∧ ¬ w.toList <+: v.toList) (rest : List Char) :
    (anyWord words).Prefers w.toList rest [] := by
  induction words with
  | nil => contradiction
  | cons v others ih =>
    obtain ⟨first, later⟩ := List.forall_mem_cons.1 apart
    by_cases same : v = w
    · subst same
      cases others with
      | nil => exact prefers_text _ _
      | cons u more => exact (prefers_text _ _).first _
    · have behind : w ∈ others := (List.mem_cons.1 member).resolve_left (Ne.symm same)
      have absent : ¬ (word v).Starts (w.toList ++ rest) := by
        intro starts
        rcases List.prefix_or_prefix_of_prefix starts.text (List.prefix_append ..) with short | long
        · exact (first same).1 short
        · exact (first same).2 long
      cases others with
      | nil => contradiction
      | cons u more => exact Prefers.other absent (ih behind later)

end CodeDeck.Extract
