import CodeDeck.Calendar
import CodeDeck.Proofs.Text.Lines

/-! Days counted from the first one of the calendar. The count turns the order of dates, the day before
a date and runs of days into statements about numbers. A date is known by its text. -/

namespace CodeDeck.Date

instance : LE Date where
  le d e := d.year < e.year ∨
    d.year = e.year ∧ (d.month < e.month ∨ d.month = e.month ∧ d.day ≤ e.day)

theorem le_def (d e : Date) : d ≤ e ↔ d.year < e.year ∨
    d.year = e.year ∧ (d.month < e.month ∨ d.month = e.month ∧ d.day ≤ e.day) := Iff.rfl

def daysBeforeMonth (year : Nat) : Nat → Nat
  | 0 => 0
  | 1 => 0
  | month + 2 => daysBeforeMonth year (month + 1) + monthLength year (month + 1)

/-- A thirteenth month would start with the next year. -/
def daysBeforeYear : Nat → Nat
  | 0 => 0
  | 1 => 0
  | year + 2 => daysBeforeYear (year + 1) + daysBeforeMonth (year + 1) 13

/-- The first of January of year 1 is day 1. -/
def number (d : Date) : Nat := daysBeforeYear d.year + daysBeforeMonth d.year d.month + d.day

theorem daysBeforeMonth_succ (year : Nat) {month : Nat} (positive : 1 ≤ month) :
    daysBeforeMonth year (month + 1) = daysBeforeMonth year month + monthLength year month := by
  obtain ⟨n, rfl⟩ := Nat.exists_eq_add_of_le' positive
  rfl

theorem daysBeforeYear_succ {year : Nat} (positive : 1 ≤ year) :
    daysBeforeYear (year + 1) = daysBeforeYear year + daysBeforeMonth year 13 := by
  obtain ⟨n, rfl⟩ := Nat.exists_eq_add_of_le' positive
  rfl

theorem daysBeforeMonth_mono (year : Nat) {first second : Nat} (order : first ≤ second) :
    daysBeforeMonth year first ≤ daysBeforeMonth year second := by
  induction order with
  | refl => exact Nat.le_refl _
  | @step month _ ih =>
    refine Nat.le_trans ih ?_
    cases month with
    | zero => exact Nat.le_refl _
    | succ month => exact Nat.le_add_right ..

theorem daysBeforeYear_mono {first second : Nat} (order : first ≤ second) :
    daysBeforeYear first ≤ daysBeforeYear second := by
  induction order with
  | refl => exact Nat.le_refl _
  | @step year _ ih =>
    refine Nat.le_trans ih ?_
    cases year with
    | zero => exact Nat.le_refl _
    | succ year => exact Nat.le_add_right ..

theorem day_in_year {d : Date} (valid : d.Valid) :
    daysBeforeMonth d.year d.month + d.day ≤ daysBeforeMonth d.year (d.month + 1) := by
  obtain ⟨_, _, month, _, _, day⟩ := valid
  rw [daysBeforeMonth_succ d.year month]
  omega

theorem number_le_year {d : Date} (valid : d.Valid) : d.number ≤ daysBeforeYear (d.year + 1) := by
  have inMonth := day_in_year valid
  have inYear : daysBeforeMonth d.year (d.month + 1) ≤ daysBeforeMonth d.year 13 :=
    daysBeforeMonth_mono d.year (Nat.succ_le_succ valid.2.2.2.1)
  rw [daysBeforeYear_succ valid.1, number]
  omega

theorem number_le_calendar {d : Date} (valid : d.Valid) : d.number ≤ daysBeforeYear 10000 :=
  Nat.le_trans (number_le_year valid) (daysBeforeYear_mono (Nat.succ_le_succ valid.2.1))

theorem number_pos {d : Date} (valid : d.Valid) : 1 ≤ d.number := by
  have day := valid.2.2.2.2.1
  unfold number
  omega

theorem number_le_of_le {d e : Date} (left : d.Valid) (order : d ≤ e) :
    d.number ≤ e.number := by
  rcases (le_def d e).1 order with year | ⟨year, month | ⟨month, day⟩⟩
  · have before := number_le_year left
    have after : daysBeforeYear (d.year + 1) ≤ e.number :=
      Nat.le_trans (daysBeforeYear_mono year) (by unfold number; omega)
    exact Nat.le_trans before after
  · have inMonth := day_in_year left
    have later : daysBeforeMonth d.year (d.month + 1) ≤ daysBeforeMonth d.year e.month :=
      daysBeforeMonth_mono d.year month
    unfold number
    rw [← year]
    omega
  · unfold number
    rw [← year, ← month]
    omega

theorem number_lt_of_not_le {d e : Date} (left : d.Valid) (right : e.Valid) (order : ¬ d ≤ e) :
    e.number < d.number := by
  rw [le_def] at order
  have positive := left.2.2.2.2.1
  by_cases year : d.year = e.year
  · by_cases month : d.month = e.month
    · unfold number
      rw [year, month]
      omega
    · have inMonth := day_in_year right
      have later := daysBeforeMonth_mono e.year (show e.month + 1 ≤ d.month by omega)
      unfold number
      rw [year]
      omega
  · have before := number_le_year right
    have after := daysBeforeYear_mono (show e.year + 1 ≤ d.year by omega)
    have first : daysBeforeYear d.year < d.number := by unfold number; omega
    omega

theorem le_iff_number_le {d e : Date} (left : d.Valid) (right : e.Valid) :
    d ≤ e ↔ d.number ≤ e.number := by
  refine ⟨number_le_of_le left, fun order => Classical.byContradiction fun reverse => ?_⟩
  have less := number_lt_of_not_le left right reverse
  omega

theorem le_antisymm {d e : Date} (first : d ≤ e) (second : e ≤ d) : d = e := by
  rw [le_def] at first second
  obtain ⟨year, month, day⟩ := d
  simp only at first second
  rw [Date.mk.injEq]
  omega

theorem eq_of_number_eq {d e : Date} (left : d.Valid) (right : e.Valid)
    (same : d.number = e.number) : d = e :=
  le_antisymm ((le_iff_number_le left right).2 (Nat.le_of_eq same))
    ((le_iff_number_le right left).2 (Nat.le_of_eq same.symm))

theorem monthLength_pos (year month : Nat) : 1 ≤ monthLength year month := by
  unfold monthLength
  split
  · split <;> omega
  · split <;> omega

theorem previous?_cases {d : Date} (valid : d.Valid) :
    (∃ p, d.previous? = some p ∧ p.Valid ∧ p.number + 1 = d.number) ∨
      d.previous? = none ∧ d.number = 1 := by
  obtain ⟨firstYear, lastYear, firstMonth, lastMonth, firstDay, lastDay⟩ := valid
  unfold previous?
  by_cases day : 1 < d.day
  · refine .inl ⟨{ d with day := d.day - 1 }, by rw [if_pos day], ?_, ?_⟩
    · exact ⟨firstYear, lastYear, firstMonth, lastMonth, Nat.le_sub_one_of_lt day,
        Nat.le_trans (Nat.sub_le ..) lastDay⟩
    · simp only [number]
      omega
  have one : d.day = 1 := by omega
  rw [if_neg day]
  by_cases month : 1 < d.month
  · refine .inl ⟨⟨d.year, d.month - 1, monthLength d.year (d.month - 1)⟩, by rw [if_pos month],
      ?_, ?_⟩
    · exact ⟨firstYear, lastYear, Nat.le_sub_one_of_lt month, Nat.le_trans (Nat.sub_le ..) lastMonth,
        monthLength_pos .., Nat.le_refl _⟩
    · have start := daysBeforeMonth_succ d.year (Nat.le_sub_one_of_lt month)
      rw [Nat.sub_add_cancel firstMonth] at start
      simp only [number]
      omega
  have january : daysBeforeMonth d.year d.month = 0 := by
    rw [show d.month = 1 by omega]
    rfl
  rw [if_neg month]
  by_cases year : 1 < d.year
  · refine .inl ⟨⟨d.year - 1, 12, 31⟩, by rw [if_pos year], ?_, ?_⟩
    · have december : (1 ≤ 12 ∧ 12 ≤ 12 ∧ 1 ≤ 31 ∧ 31 ≤ 31) := by decide
      exact ⟨Nat.le_sub_one_of_lt year, Nat.le_trans (Nat.sub_le ..) lastYear, december⟩
    · have start := daysBeforeYear_succ (Nat.le_sub_one_of_lt year)
      rw [Nat.sub_add_cancel firstYear] at start
      have monthEnd : daysBeforeMonth (d.year - 1) 13 = daysBeforeMonth (d.year - 1) 12 + 31 :=
        daysBeforeMonth_succ (d.year - 1) (by decide)
      simp only [number]
      omega
  · have first : daysBeforeYear d.year = 0 := by
      rw [show d.year = 1 by omega]
      rfl
    refine .inr ⟨by rw [if_neg year], ?_⟩
    unfold number
    omega

theorem previous?_number {d : Date} (valid : d.Valid) (later : 1 < d.number) :
    ∃ p, d.previous? = some p ∧ p.Valid ∧ p.number + 1 = d.number := by
  rcases previous?_cases valid with found | ⟨_, first⟩
  · exact found
  · omega

theorem before?_eq_some_iff (n : Nat) {d p : Date} (valid : d.Valid) :
    d.before? n = some p ↔ p.Valid ∧ p.number + n = d.number := by
  induction n generalizing d with
  | zero =>
    rw [before?, Option.some.injEq]
    constructor
    · rintro rfl
      exact ⟨valid, rfl⟩
    · rintro ⟨validP, same⟩
      exact (eq_of_number_eq validP valid same).symm
  | succ n ih =>
    rcases previous?_cases valid with ⟨q, previous, validQ, step⟩ | ⟨previous, first⟩
    · rw [before?, previous, Option.bind_some, ih validQ, ← step, ← Nat.add_assoc,
        Nat.add_right_cancel_iff]
    · have positive : p.Valid → 1 ≤ p.number := number_pos
      rw [before?, previous, Option.bind_none]
      constructor
      · intro found
        cases found
      · rintro ⟨validP, same⟩
        have := positive validP
        omega

theorem before?_number (n : Nat) {d : Date} (valid : d.Valid) (later : n < d.number) :
    ∃ p, d.before? n = some p ∧ p.Valid ∧ p.number + n = d.number := by
  induction n generalizing d with
  | zero => exact ⟨d, rfl, valid, rfl⟩
  | succ n ih =>
    obtain ⟨p, previous, validP, step⟩ := previous?_number valid (by omega)
    obtain ⟨q, before, validQ, steps⟩ := ih validP (by omega)
    refine ⟨q, ?_, validQ, by omega⟩
    rw [before?, previous]
    exact before

theorem exists_daysThrough? (n : Nat) {d : Date} (valid : d.Valid) (enough : n ≤ d.number) (later : List Date) :
    ∃ dates, d.daysThrough? n later = some (dates ++ later) ∧
      dates.reverse.map some = (List.range n).map fun i => d.before? i := by
  induction n generalizing d later with
  | zero => exact ⟨[], rfl, rfl⟩
  | succ n ih =>
    cases n with
    | zero => exact ⟨[d], rfl, rfl⟩
    | succ n =>
      obtain ⟨p, previous, validP, step⟩ := previous?_number valid (by omega)
      obtain ⟨dates, through, backwards⟩ := ih validP (by omega) (d :: later)
      refine ⟨dates ++ [d], ?_, ?_⟩
      · rw [daysThrough?, previous, Option.bind_some, through, List.append_assoc, List.singleton_append]
      · have before (i : Nat) : d.before? (i + 1) = p.before? i := by rw [before?, previous, Option.bind_some]
        rw [List.reverse_append, List.reverse_singleton, List.singleton_append, List.map_cons, backwards,
          List.range_succ_eq_map (n := n + 1), List.map_cons, List.map_map]
        simp only [Function.comp_def, Nat.succ_eq_add_one, before]
        rfl

theorem year_lt_number {d : Date} (valid : d.Valid) (year : 2 ≤ d.year) : 365 < d.number := by
  have first : daysBeforeYear 2 = 365 := by decide
  have start := daysBeforeYear_mono year
  have positive := valid.2.2.2.2.1
  unfold number
  omega

theorem ofDigitChars_padded (width n : Nat) :
    Nat.ofDigitChars 10 (padded width n).toList 0 = n := by
  rw [padded, String.toList_append, String.toList_ofList, Nat.ofDigitChars_append,
    Nat.ofDigitChars_replicate_zero, Nat.mul_zero, Nat.toString_eq_ofList_toDigits,
    String.toList_ofList, Nat.ofDigitChars_ten_toDigits]

theorem isDigit_of_mem_padded {width n : Nat} {c : Char} (member : c ∈ (padded width n).toList) :
    c.isDigit = true := by
  rw [padded, String.toList_append, String.toList_ofList, List.mem_append] at member
  rcases member with zero | figure
  · rw [(List.mem_replicate.1 zero).2]
    rfl
  · rw [Nat.toString_eq_ofList_toDigits, String.toList_ofList] at figure
    exact Nat.isDigit_of_mem_toDigits (by decide) (by decide) figure

theorem dash_notMem_padded (width n : Nat) : '-' ∉ (padded width n).toList := by
  intro member
  exact absurd (isDigit_of_mem_padded member) (by decide)

theorem padded_inj {width m n : Nat} (same : (padded width m).toList = (padded width n).toList) :
    m = n := by
  rw [← ofDigitChars_padded width m, same, ofDigitChars_padded]

theorem toList_text (d : Date) :
    d.text.toList = (padded 4 d.year).toList ++ '-' ::
      ((padded 2 d.month).toList ++ '-' :: (padded 2 d.day).toList) := by
  simp [text, String.toList_append]

theorem text_inj {d e : Date} (same : d.text = e.text) : d = e := by
  have letters : d.text.toList = e.text.toList := congrArg String.toList same
  rw [toList_text, toList_text] at letters
  obtain ⟨year, rest⟩ :=
    Text.append_separator_inj (dash_notMem_padded 4 d.year) (dash_notMem_padded 4 e.year) letters
  obtain ⟨month, day⟩ :=
    Text.append_separator_inj (dash_notMem_padded 2 d.month) (dash_notMem_padded 2 e.month) rest
  obtain ⟨_, _, _⟩ := d
  rw [Date.mk.injEq]
  exact ⟨padded_inj year, padded_inj month, padded_inj day⟩

theorem text_eq_text_iff (d e : Date) : d.text = e.text ↔ d = e :=
  ⟨text_inj, congrArg text⟩

theorem text_ne_empty (d : Date) : d.text ≠ "" := by
  intro empty
  have letters := congrArg String.toList empty
  rw [toList_text] at letters
  simp at letters

end CodeDeck.Date
