import CodeDeck.Proofs.Scan.Balanced
import CodeDeck.Proofs.Text.Lines

/-! Text without literals and comments. In balanced text of this kind every brace that opens is closed, so that no
scan for the end of a block leaves it. -/

namespace CodeDeck.Scan

open CodeDeck.Text

structure Bare (s : List Char) : Prop where
  unquoted : ∀ c ∈ s, c ∉ defaultQuotes
  noLine : ¬ ['/', '/'] <:+: s
  noBlock : ¬ ['/', '*'] <:+: s

theorem bare_iff (s : List Char) :
    Bare s ↔ (∀ c ∈ s, c ∉ defaultQuotes) ∧ ¬ ['/', '/'] <:+: s ∧ ¬ ['/', '*'] <:+: s :=
  ⟨fun bare => ⟨bare.unquoted, bare.noLine, bare.noBlock⟩, fun ⟨quotes, line, block⟩ => ⟨quotes, line, block⟩⟩

instance : DecidablePred Bare := fun s => decidable_of_iff _ (bare_iff s).symm

theorem Bare.of_infix {s t : List Char} (bare : Bare t) (part : s <:+: t) : Bare s where
  unquoted := fun c member => bare.unquoted c (part.subset member)
  noLine := fun line => bare.noLine (line.trans part)
  noBlock := fun block => bare.noBlock (block.trans part)

section Unit

variable {s a b : List Char}

theorem Balanced.exists_unit (balanced : Balanced braces s) (bare : Bare s) (opens : s = a ++ '\x7b' :: b) :
    ∃ inside rest, b = inside ++ '\x7d' :: rest ∧ Balanced braces inside := by
  induction balanced generalizing a b with
  | nil => exact absurd opens (by simp)
  | @plain c more free _ _ ih =>
    cases a with
    | nil => exact absurd (List.cons.inj opens).1 free.1
    | cons d others => exact ih (bare.of_infix (List.suffix_cons c more).isInfix) (List.cons.inj opens).2
  | literal quotes _ _ _ => exact absurd quotes (bare.unquoted _ List.mem_cons_self)
  | lineComment _ _ _ _ => exact absurd (List.prefix_append ['/', '/'] _).isInfix bare.noLine
  | blockComment _ _ _ _ => exact absurd (List.prefix_append ['/', '*'] _).isInfix bare.noBlock
  | @nested inside more within _ ih ih' =>
    have bareInside : Bare inside := bare.of_infix ⟨['\x7b'], '\x7d' :: more, by simp [braces]⟩
    have bareMore : Bare more := bare.of_infix ⟨'\x7b' :: (inside ++ ['\x7d']), [], by simp [braces]⟩
    cases a with
    | nil => exact ⟨inside, more, ((List.cons.inj opens).2).symm, within⟩
    | cons d others =>
      rcases List.append_eq_append_iff.1 (List.cons.inj opens).2 with ⟨between, rfl, same⟩ | ⟨between, rfl, same⟩
      · cases between with
        | nil => exact absurd (List.cons.inj same).1 (by decide)
        | cons e behind => exact ih' bareMore (List.cons.inj same).2
      · cases between with
        | nil => exact absurd (List.cons.inj same).1 (by decide)
        | cons e behind =>
          obtain ⟨rfl, rfl⟩ := List.cons.inj same
          obtain ⟨unit, rest, rfl, closed⟩ := ih bareInside rfl
          exact ⟨unit, rest ++ '\x7d' :: more, by simp [braces], closed⟩

theorem braceEnd_unit (balanced : Balanced braces s) (bare : Bare s) (opens : s = a ++ '\x7b' :: b) (i : Nat)
    (after : List Char) :
    ∃ stop, braceEnd defaultQuotes .code 0 i ('\x7b' :: (b ++ after)) = some stop ∧ stop ≤ i + b.length + 1 := by
  obtain ⟨inside, rest, rfl, closed⟩ := balanced.exists_unit bare opens
  refine ⟨i + inside.length + 2, ?_, ?_⟩
  · rw [braceEnd_default]
    exact unitEnd_eq_some_iff.2 ⟨inside, rest ++ after, by simp [braces], closed, rfl⟩
  · simp only [List.length_append, List.length_cons]
    omega

theorem braceEnd_first (balanced : Balanced braces s) (bare : Bare s) (braced : '\x7b' ∈ s) (i : Nat)
    (after : List Char) : ∃ stop, braceEnd defaultQuotes .code 0 i (s ++ after) = some stop ∧ stop ≤ i + s.length := by
  induction balanced generalizing i with
  | nil => exact absurd braced List.not_mem_nil
  | @plain c more free alone _ ih =>
    have behind : '\x7b' ∈ more := (List.mem_cons.1 braced).resolve_left (Ne.symm free.1)
    obtain ⟨d, others, rfl⟩ := List.exists_cons_of_ne_nil (List.ne_nil_of_mem behind)
    obtain ⟨stop, ends, bound⟩ := ih (bare.of_infix (List.suffix_cons c _).isInfix) behind (i + 1)
    refine ⟨stop, ?_, by rw [List.length_cons]; omega⟩
    rw [braceEnd_default] at ends ⊢
    have stays : Region.code.next braces.quotes braces.comments c ((d :: others) ++ after).head? = .code :=
      (next_eq_code_iff _).2 ⟨free.2.2, alone⟩
    rw [List.cons_append, unitEnd_free ⟨free.1, free.2.1⟩, stays]
    exact ends
  | literal quotes _ _ _ => exact absurd quotes (bare.unquoted _ List.mem_cons_self)
  | lineComment _ _ _ _ => exact absurd (List.prefix_append ['/', '/'] _).isInfix bare.noLine
  | blockComment _ _ _ _ => exact absurd (List.prefix_append ['/', '*'] _).isInfix bare.noBlock
  | @nested inside more within _ _ _ =>
    refine ⟨i + inside.length + 2, ?_, ?_⟩
    · rw [braceEnd_default]
      exact unitEnd_eq_some_iff.2 ⟨inside, more ++ after, by simp [braces], within, rfl⟩
    · simp only [List.length_append, List.length_cons]
      omega

end Unit

end CodeDeck.Scan
