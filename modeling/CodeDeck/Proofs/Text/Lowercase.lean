import CodeDeck.Text.Lowercase

/-! A text in lower case stays as it is when it is put into lower case again: no letter of the table is
mapped to one that the table maps further. -/

namespace CodeDeck.Text

def IsSmall (c : Char) : Prop := c ≠ capitalSigma ∧ c.toNat ≠ 0x130 ∧ lowerChar c = c

instance (c : Char) : Decidable (IsSmall c) := by unfold IsSmall; infer_instance

theorem isSmall_toLower : ∀ n < 128, IsSmall (Char.ofNat n).toLower := by decide +kernel

/-- A run of the table of letters. -/
structure LowercaseRun where
  first : Nat
  last : Nat
  step : Nat
  shift : Int

namespace LowercaseRun

def ofEntry : Nat × Nat × Nat × Int → LowercaseRun
  | (first, last, step, shift) => ⟨first, last, step, shift⟩

def maps (run : LowercaseRun) (n : Nat) : Prop :=
  run.first ≤ n ∧ n ≤ run.last ∧ (n - run.first) % run.step = 0

instance (run : LowercaseRun) (n : Nat) : Decidable (run.maps n) := by unfold maps; infer_instance

def least (run : LowercaseRun) : Nat := (run.first + run.shift).toNat

def greatest (run : LowercaseRun) : Nat := (run.last + run.shift).toNat

/-- The small letters of the run lie beside the other one, or alternate with its letters. -/
def apart (run other : LowercaseRun) : Bool :=
  Nat.blt run.greatest other.first || Nat.blt other.last run.least ||
    (run.first == run.last || run.step == 2) && other.step == 2 &&
      (run.first + run.shift - other.first) % 2 == 1

theorem not_maps_of_apart {run other : LowercaseRun} (separate : run.apart other = true) {n : Nat}
    (mapped : run.maps n) (positive : 0 < n + run.shift) : ¬ other.maps (n + run.shift).toNat := by
  obtain ⟨first, last, step, shift⟩ := run
  obtain ⟨first', last', step', shift'⟩ := other
  obtain ⟨above, below, steps⟩ := mapped
  rintro ⟨above', below', steps'⟩
  simp only [apart, least, greatest, Bool.or_eq_true, Bool.and_eq_true, Nat.blt_eq, beq_iff_eq]
    at separate
  dsimp only at *
  rcases separate with (before | behind) | ⟨⟨single | two, two'⟩, different⟩
  · omega
  · omega
  · subst two'
    omega
  · subst two two'
    omega

end LowercaseRun

def lowercaseRuns : List LowercaseRun := lowercaseTable.map LowercaseRun.ofEntry

/-- No letter is mapped to one that is mapped further, nor to one of the two special letters. -/
theorem lowercaseRuns_apart :
    (lowercaseRuns.all fun run =>
      (⟨0x130, 0x130, 1, 0⟩ :: ⟨0x3A3, 0x3A3, 1, 0⟩ :: lowercaseRuns).all run.apart) = true := by
  decide +kernel

theorem lowercaseRuns_ascii :
    (lowercaseRuns.all fun run => Nat.ble 128 run.least ||
      run.first == run.last && decide (IsSmall (Char.ofNat run.least))) = true := by
  decide +kernel

theorem lowerChar_of_not_maps {c : Char} (large : 128 ≤ c.toNat)
    (unmapped : ∀ run ∈ lowercaseRuns, ¬ run.maps c.toNat) : lowerChar c = c := by
  have none : lowercaseTable.find? (fun (first, last, step, _) =>
      first ≤ c.toNat && c.toNat ≤ last && (c.toNat - first) % step == 0) = none := by
    rw [List.find?_eq_none]
    rintro ⟨first, last, step, shift⟩ member fits
    simp only [Bool.and_eq_true, decide_eq_true_eq, beq_iff_eq] at fits
    exact unmapped _ (List.mem_map_of_mem member) ⟨fits.1.1, fits.1.2, fits.2⟩
  rw [lowerChar, if_neg (Nat.not_lt.2 large), none]

theorem lowerChar_cases {c : Char} (large : 128 ≤ c.toNat) :
    (∃ run ∈ lowercaseRuns, run.maps c.toNat ∧ lowerChar c = Char.ofNat (c.toNat + run.shift).toNat) ∨
      lowerChar c = c := by
  rw [lowerChar, if_neg (Nat.not_lt.2 large)]
  split
  · next first last step shift found =>
    have fits := List.find?_some found
    simp only [Bool.and_eq_true, decide_eq_true_eq, beq_iff_eq] at fits
    exact .inl ⟨_, List.mem_map_of_mem (List.mem_of_find?_eq_some found),
      ⟨fits.1.1, fits.1.2, fits.2⟩, rfl⟩
  · exact .inr rfl

theorem isSmall_of_lt {c : Char} (less : c.toNat < 128) : IsSmall c.toLower := by
  have small := isSmall_toLower c.toNat less
  rwa [Char.ofNat_toNat] at small

theorem toNat_ofNat_cases (n : Nat) : (Char.ofNat n).toNat = n ∨ Char.ofNat n = Char.ofNat 0 := by
  by_cases valid : n.isValidChar
  · refine .inl ?_
    rw [Char.ofNat, dif_pos valid]
    rfl
  · refine .inr ?_
    rw [Char.ofNat, dif_neg valid]
    rfl

/-- What the two letters with rules of their own become, and what stands for a number that is no character. -/
def specialLetters : List Char := ['i', Char.ofNat 0x307, Char.ofNat 0x3C2, Char.ofNat 0x3C3, Char.ofNat 0]

theorem isSmall_of_mem_specialLetters {c : Char} (member : c ∈ specialLetters) : IsSmall c := by
  have each : (specialLetters.all fun c => decide (IsSmall c)) = true := by decide +kernel
  exact of_decide_eq_true (List.all_eq_true.1 each c member)

theorem isSmall_of_maps {run : LowercaseRun} (member : run ∈ lowercaseRuns) {n : Nat}
    (mapped : run.maps n) : IsSmall (Char.ofNat (n + run.shift).toNat) := by
  have separate := List.all_eq_true.1 (List.all_eq_true.1 lowercaseRuns_apart run member)
  have ascii := List.all_eq_true.1 lowercaseRuns_ascii run member
  rcases toNat_ofNat_cases (n + run.shift).toNat with code | zero
  · by_cases less : (n + run.shift).toNat < 128
    · rw [Bool.or_eq_true, Bool.and_eq_true, Nat.ble_eq, beq_iff_eq, decide_eq_true_eq] at ascii
      rcases ascii with large | ⟨single, small⟩
      · obtain ⟨above, _, _⟩ := mapped
        rw [LowercaseRun.least] at large
        omega
      · obtain ⟨above, below, _⟩ := mapped
        obtain rfl : run.first = n := by omega
        exact small
    · have positive : 0 < n + run.shift := by omega
      have unmapped (other : LowercaseRun) (inside : other ∈ _) : ¬ other.maps (n + run.shift).toNat :=
        LowercaseRun.not_maps_of_apart (separate other inside) mapped positive
      have notDotted := unmapped ⟨0x130, 0x130, 1, 0⟩ (by simp)
      have notSigma := unmapped ⟨0x3A3, 0x3A3, 1, 0⟩ (by simp)
      refine ⟨fun sigma => notSigma ?_, fun dotted => notDotted ?_, ?_⟩
      · rw [← code, sigma]
        decide
      · rw [← code, dotted]
        decide
      · refine lowerChar_of_not_maps (by omega) fun other inside => ?_
        rw [code]
        exact unmapped other (List.mem_cons_of_mem _ (List.mem_cons_of_mem _ inside))
  · rw [zero]
    exact isSmall_of_mem_specialLetters (by simp [specialLetters])

theorem isSmall_lowerChar {c : Char} (other : c ≠ capitalSigma) (dotless : c.toNat ≠ 0x130) :
    IsSmall (lowerChar c) := by
  by_cases less : c.toNat < 128
  · rw [lowerChar, if_pos less]
    exact isSmall_of_lt less
  · rcases lowerChar_cases (Nat.not_lt.1 less) with ⟨run, member, mapped, same⟩ | same
    · rw [same]
      exact isSmall_of_maps member mapped
    · rw [IsSmall, same]
      exact ⟨other, dotless, same⟩

theorem lowerAfter_of_small {s : List Char} (small : ∀ c ∈ s, IsSmall c) (before : List Char) :
    lowerAfter before s = s := by
  induction s generalizing before with
  | nil => rfl
  | cons c rest ih =>
    obtain ⟨other, dotless, same⟩ := small c List.mem_cons_self
    rw [lowerAfter, ih fun d member => small d (List.mem_cons_of_mem _ member)]
    simp only [if_neg other, if_neg dotless, same]
    rfl

theorem isSmall_of_mem_lowerAfter {s before : List Char} : ∀ c ∈ lowerAfter before s, IsSmall c := by
  induction s generalizing before with
  | nil => simp [lowerAfter]
  | cons d rest ih =>
    intro c member
    rw [lowerAfter, List.mem_append] at member
    rcases member with first | later
    · split at first
      · refine isSmall_of_mem_specialLetters ?_
        split at first <;> simp [specialLetters, List.mem_singleton.1 first]
      · next other =>
        split at first
        · exact isSmall_of_mem_specialLetters (List.mem_of_mem_take (i := 2) first)
        · next dotless =>
          obtain rfl := List.mem_singleton.1 first
          exact isSmall_lowerChar other dotless
    · exact ih c later

theorem lower_lower (s : List Char) : lower (lower s) = lower s :=
  lowerAfter_of_small isSmall_of_mem_lowerAfter []

theorem lowerString_lowerString (s : String) : lowerString (lowerString s) = lowerString s := by
  simp only [lowerString, String.toList_ofList, lower_lower]

end CodeDeck.Text
