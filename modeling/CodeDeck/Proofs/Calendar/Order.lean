import CodeDeck.Proofs.Calendar
import Mathlib.Algebra.Group.Nat.Defs

/-! Texts of dates compare as the dates do. All of them are of one form and one length, so that the first place
where they differ decides about the year, the month or the day. -/

namespace CodeDeck.Date

section Digits

variable {a b : List Char}

theorem append_lt_append_iff {r t : List Char} (same : a.length = b.length) :
    a ++ r < b ++ t ↔ a < b ∨ a = b ∧ r < t := by
  induction a generalizing b with
  | nil =>
    obtain rfl := List.eq_nil_of_length_eq_zero same.symm
    simp
  | cons c a ih =>
    cases b with
    | nil => contradiction
    | cons d b =>
      rw [List.cons_append, List.cons_append, List.cons_lt_cons_iff, List.cons_lt_cons_iff,
        ih (Nat.succ.inj same), List.cons.injEq]
      tauto

theorem code_of_isDigit {c : Char} (digit : c.isDigit = true) : 48 ≤ c.toNat ∧ c.toNat ≤ 57 :=
  Char.isDigit_iff_toNat.1 digit

theorem ofDigitChars_lt_of_lt (same : a.length = b.length) (digits : ∀ c ∈ a, c.isDigit = true)
    {m n : Nat} (less : m < n) : Nat.ofDigitChars 10 a m < Nat.ofDigitChars 10 b n := by
  induction a generalizing b m n with
  | nil =>
    obtain rfl := List.eq_nil_of_length_eq_zero same.symm
    exact less
  | cons c a ih =>
    cases b with
    | nil => contradiction
    | cons d b =>
      obtain ⟨_, bound⟩ := code_of_isDigit (digits c List.mem_cons_self)
      have zero : '0'.toNat = 48 := rfl
      rw [Nat.ofDigitChars_cons, Nat.ofDigitChars_cons]
      exact ih (Nat.succ.inj same) (fun e member => digits e (List.mem_cons_of_mem _ member)) (by omega)

theorem digits_lt_iff (same : a.length = b.length) (left : ∀ c ∈ a, c.isDigit = true)
    (right : ∀ c ∈ b, c.isDigit = true) (n : Nat) :
    a < b ↔ Nat.ofDigitChars 10 a n < Nat.ofDigitChars 10 b n := by
  induction a generalizing b n with
  | nil =>
    obtain rfl := List.eq_nil_of_length_eq_zero same.symm
    exact iff_of_false (List.lt_irrefl _) (Nat.lt_irrefl _)
  | cons c a ih =>
    cases b with
    | nil => contradiction
    | cons d b =>
      obtain ⟨lowC, _⟩ := code_of_isDigit (left c List.mem_cons_self)
      obtain ⟨lowD, _⟩ := code_of_isDigit (right d List.mem_cons_self)
      have left' (e : Char) (member : e ∈ a) := left e (List.mem_cons_of_mem _ member)
      have right' (e : Char) (member : e ∈ b) := right e (List.mem_cons_of_mem _ member)
      have shorter : a.length = b.length := Nat.succ.inj same
      have order : c < d ↔ c.toNat < d.toNat := Iff.rfl
      have zero : '0'.toNat = 48 := rfl
      rw [List.cons_lt_cons_iff, Nat.ofDigitChars_cons, Nat.ofDigitChars_cons]
      rcases Nat.lt_trichotomy c.toNat d.toNat with less | equal | greater
      · exact iff_of_true (.inl (order.2 less)) (ofDigitChars_lt_of_lt shorter left' (by omega))
      · obtain rfl : c = d := Char.toNat_inj.1 equal
        have self : ¬ c < c := fun less => Nat.lt_irrefl _ (order.1 less)
        rw [ih shorter left' right' (10 * n + (c.toNat - '0'.toNat))]
        simp only [self, false_or, true_and]
      · refine iff_of_false ?_ (Nat.lt_asymm (ofDigitChars_lt_of_lt shorter.symm right' (by omega)))
        rintro (less | ⟨rfl, _⟩)
        · exact Nat.lt_asymm greater (order.1 less)
        · exact Nat.lt_irrefl _ greater

end Digits

theorem length_padded {width n : Nat} (positive : 0 < width) (fits : n < 10 ^ width) :
    (padded width n).toList.length = width := by
  have short := (Nat.length_toDigits_le_iff (b := 10) (n := n) (by decide) positive).2 fits
  rw [padded, String.toList_append, String.toList_ofList, List.length_append, List.length_replicate,
    Nat.toString_eq_ofList_toDigits, String.toList_ofList, String.length_ofList]
  omega

theorem padded_lt_iff {width m n : Nat} (positive : 0 < width) (left : m < 10 ^ width) (right : n < 10 ^ width) :
    (padded width m).toList < (padded width n).toList ↔ m < n := by
  have same := (length_padded positive left).trans (length_padded positive right).symm
  rw [digits_lt_iff same (fun _ => isDigit_of_mem_padded) (fun _ => isDigit_of_mem_padded) 0,
    ofDigitChars_padded, ofDigitChars_padded]

theorem padded_eq_iff {width m n : Nat} : (padded width m).toList = (padded width n).toList ↔ m = n :=
  ⟨padded_inj, fun same => same ▸ rfl⟩

theorem monthLength_le (year month : Nat) : monthLength year month ≤ 31 := by
  unfold monthLength
  split
  · split <;> omega
  · split <;> omega

theorem parts_lt {d : Date} (valid : d.Valid) : d.year < 10 ^ 4 ∧ d.month < 10 ^ 2 ∧ d.day < 10 ^ 2 := by
  obtain ⟨_, year, _, month, _, day⟩ := valid
  have length := monthLength_le d.year d.month
  omega

theorem text_lt_iff {d e : Date} (left : d.Valid) (right : e.Valid) : d.text < e.text ↔ d.number < e.number := by
  obtain ⟨year, month, day⟩ := parts_lt left
  obtain ⟨year', month', day'⟩ := parts_lt right
  have four : 0 < 4 := by decide
  have two : 0 < 2 := by decide
  have sameYear := (length_padded four year).trans (length_padded four year').symm
  have sameMonth := (length_padded two month).trans (length_padded two month').symm
  have before : d.text < e.text ↔ ¬ e ≤ d := by
    rw [String.lt_iff, toList_text, toList_text, append_lt_append_iff sameYear,
      padded_lt_iff four year year', padded_eq_iff, List.cons_lt_cons_iff, append_lt_append_iff sameMonth,
      padded_lt_iff two month month', padded_eq_iff, List.cons_lt_cons_iff, padded_lt_iff two day day', le_def]
    have dash : ¬ '-' < '-' := by decide
    simp only [dash, false_or, true_and]
    omega
  rw [before, le_iff_number_le right left, Nat.not_le]

theorem text_le_iff {d e : Date} (left : d.Valid) (right : e.Valid) : d.text ≤ e.text ↔ d.number ≤ e.number := by
  rw [← String.not_lt, text_lt_iff right left, Nat.not_lt]

end CodeDeck.Date
