import CodeDeck.Proofs.Streak.Tally
import Mathlib.Data.Set.Insert

/-! Runs of days. The days are given as a set; a later day touches no run that ends before it, and the
run that ends with it goes on with the run up to the day before. -/

namespace CodeDeck.Streak

/-- Are the `n` days that end at `d` all among the given ones? -/
def RunTo (days : Set Date) (d : Date) (n : Nat) : Prop :=
  ∀ i < n, ∃ p ∈ days, d.before? i = some p

def IsRun (days : Set Date) (d : Date) (n : Nat) : Prop := RunTo days d n ∧ ¬ RunTo days d (n + 1)

def IsLongest (days : Set Date) (n : Nat) : Prop := ∀ m, (∃ d, RunTo days d m) ↔ m ≤ n

/-- The current streak on a day: the run that ends on that day or else on the day before. -/
structure IsCurrent (days : Set Date) (today : Date) (n : Nat) : Prop where
  on_active_day : today ∈ days → IsRun days today n
  on_next_day : today ∉ days → ∀ y ∈ days, today.previous? = some y → IsRun days y n
  broken : today ∉ days → (∀ y ∈ days, today.previous? ≠ some y) → n = 0

def IsLatest (days : Set Date) (text : String) : Prop :=
  days = ∅ ∧ text = "" ∨ ∃ d ∈ days, (∀ e ∈ days, e ≤ d) ∧ text = d.text

def Stretch (days : Set Date) (k n : Nat) : Prop := ∀ i < n, ∃ p ∈ days, p.number + i = k

variable {days : Set Date}

theorem RunTo.mono {d : Date} {m n : Nat} (run : RunTo days d n) (less : m ≤ n) : RunTo days d m :=
  fun i inside => run i (Nat.lt_of_lt_of_le inside less)

theorem IsRun.unique {d : Date} {m n : Nat} (left : IsRun days d m) (right : IsRun days d n) :
    m = n :=
  Nat.le_antisymm (Nat.le_of_not_lt fun more => right.2 (left.1.mono more))
    (Nat.le_of_not_lt fun more => left.2 (right.1.mono more))

theorem IsCurrent.unique {today : Date} {m n : Nat} (left : IsCurrent days today m)
    (right : IsCurrent days today n) : m = n := by
  by_cases active : today ∈ days
  · exact (left.on_active_day active).unique (right.on_active_day active)
  · by_cases yesterday : ∃ y ∈ days, today.previous? = some y
    · obtain ⟨y, member, previous⟩ := yesterday
      exact (left.on_next_day active y member previous).unique
        (right.on_next_day active y member previous)
    · have gap : ∀ y ∈ days, today.previous? ≠ some y := fun y member previous =>
        yesterday ⟨y, member, previous⟩
      rw [left.broken active gap, right.broken active gap]

theorem IsLongest.unique {m n : Nat} (left : IsLongest days m) (right : IsLongest days n) :
    m = n :=
  Nat.le_antisymm ((right m).1 ((left m).2 (Nat.le_refl m)))
    ((left n).1 ((right n).2 (Nat.le_refl n)))

theorem IsLatest.unique {a b : String} (left : IsLatest days a) (right : IsLatest days b) :
    a = b := by
  rcases left with ⟨nothing, rfl⟩ | ⟨d, member, latest, rfl⟩
  · rcases right with ⟨_, rfl⟩ | ⟨e, member, _⟩
    · rfl
    · exact absurd member (nothing ▸ id)
  · rcases right with ⟨nothing, _⟩ | ⟨e, member', latest', rfl⟩
    · exact absurd member (nothing ▸ id)
    · exact congrArg Date.text (Date.le_antisymm (latest' d member) (latest e member'))

theorem runTo_iff (valid : ∀ p ∈ days, p.Valid) {d : Date} (validD : d.Valid) (n : Nat) :
    RunTo days d n ↔ Stretch days d.number n := by
  unfold RunTo Stretch
  refine forall₂_congr fun i _ => exists_congr fun p => and_congr_right fun member => ?_
  rw [Date.before?_eq_some_iff i validD]
  exact and_iff_right (valid p member)

theorem Stretch.mono {k m n : Nat} (stretch : Stretch days k n) (less : m ≤ n) :
    Stretch days k m := fun i inside => stretch i (Nat.lt_of_lt_of_le inside less)

theorem stretch_zero (days : Set Date) (k : Nat) : Stretch days k 0 := by
  intro i inside
  omega

theorem exists_runTo_iff (valid : ∀ p ∈ days, p.Valid) (n : Nat) :
    (∃ d, RunTo days d n) ↔ ∃ k, Stretch days k n := by
  cases n with
  | zero =>
    refine iff_of_true ⟨⟨1, 1, 1⟩, fun i inside => ?_⟩ ⟨0, stretch_zero days 0⟩
    omega
  | succ n =>
    constructor
    · rintro ⟨d, run⟩
      obtain ⟨p, member, same⟩ := run 0 (Nat.succ_pos n)
      obtain rfl : d = p := by simpa [Date.before?] using same
      exact ⟨d.number, (runTo_iff valid (valid d member) _).1 run⟩
    · rintro ⟨k, stretch⟩
      obtain ⟨p, member, rfl⟩ := stretch 0 (Nat.succ_pos n)
      exact ⟨p, (runTo_iff valid (valid p member) _).2 stretch⟩

theorem stretch_beyond {k : Nat} (last : ∀ e ∈ days, e.number < k) (n : Nat) :
    ¬ Stretch days k (n + 1) := by
  intro stretch
  obtain ⟨p, member, same⟩ := stretch 0 (Nat.succ_pos n)
  have less := last p member
  omega

variable {d : Date}

theorem stretch_insert_of_lt {k : Nat} (earlier : k < d.number) (n : Nat) :
    Stretch (insert d days) k n ↔ Stretch days k n := by
  refine forall₂_congr fun i _ => exists_congr fun p => and_congr_left fun same => ?_
  rw [Set.mem_insert_iff]
  refine or_iff_right fun equal => ?_
  rw [equal] at same
  omega

theorem stretch_insert_self {k : Nat} (next : k + 1 = d.number) (n : Nat) :
    Stretch (insert d days) d.number (n + 1) ↔ Stretch days k n := by
  constructor
  · intro stretch i inside
    obtain ⟨p, member, same⟩ := stretch (i + 1) (by omega)
    rcases Set.mem_insert_iff.1 member with rfl | old
    · omega
    · exact ⟨p, old, by omega⟩
  · intro stretch i inside
    cases i with
    | zero => exact ⟨d, Set.mem_insert d days, rfl⟩
    | succ i =>
      obtain ⟨p, old, same⟩ := stretch i (by omega)
      exact ⟨p, Set.mem_insert_of_mem d old, by omega⟩

theorem exists_stretch_insert (later : ∀ e ∈ days, e.number < d.number) (n : Nat) :
    (∃ k, Stretch (insert d days) k n) ↔
      (∃ k, Stretch days k n) ∨ Stretch (insert d days) d.number n := by
  cases n with
  | zero => exact iff_of_true ⟨0, stretch_zero _ 0⟩ (.inl ⟨0, stretch_zero _ 0⟩)
  | succ n =>
    constructor
    · rintro ⟨k, stretch⟩
      rcases Nat.lt_trichotomy k d.number with less | rfl | more
      · exact .inl ⟨k, (stretch_insert_of_lt less _).1 stretch⟩
      · exact .inr stretch
      · refine absurd stretch (stretch_beyond (fun e member => ?_) n)
        rcases Set.mem_insert_iff.1 member with rfl | old
        · exact more
        · exact Nat.lt_trans (later e old) more
    · rintro (⟨k, stretch⟩ | stretch)
      · obtain ⟨p, member, same⟩ := stretch 0 (Nat.succ_pos n)
        have less := later p member
        exact ⟨k, (stretch_insert_of_lt (by omega) _).2 stretch⟩
      · exact ⟨d.number, stretch⟩

/-- The runs of the days, by number: the longest one that ends with `k` has `n` days. -/
def Reaches (days : Set Date) (k n : Nat) : Prop := ∀ m, Stretch days k m ↔ m ≤ n

theorem reaches_of_not {k n : Nat} (stretch : Stretch days k n)
    (longer : ¬ Stretch days k (n + 1)) : Reaches days k n := fun _ =>
  ⟨fun other => Nat.le_of_not_lt fun more => longer (other.mono more), stretch.mono⟩

theorem Reaches.isRun (valid : ∀ p ∈ days, p.Valid) (validD : d.Valid) {n : Nat}
    (reaches : Reaches days d.number n) : IsRun days d n := by
  unfold IsRun
  rw [runTo_iff valid validD, runTo_iff valid validD, reaches n, reaches (n + 1)]
  omega

def Peaks (days : Set Date) (n : Nat) : Prop := ∀ m, (∃ k, Stretch days k m) ↔ m ≤ n

theorem peaks_empty : Peaks ∅ 0 := by
  intro m
  cases m with
  | zero => exact iff_of_true ⟨0, stretch_zero _ 0⟩ (Nat.le_refl 0)
  | succ m =>
    refine iff_of_false ?_ (by omega)
    rintro ⟨k, stretch⟩
    obtain ⟨_, member, _⟩ := stretch 0 (Nat.succ_pos m)
    exact member

theorem Peaks.isLongest (valid : ∀ p ∈ days, p.Valid) {n : Nat} (peaks : Peaks days n) :
    IsLongest days n := fun m => (exists_runTo_iff valid m).trans (peaks m)

theorem Peaks.insert (later : ∀ e ∈ days, e.number < d.number) {m n : Nat} (peaks : Peaks days m)
    (reaches : Reaches (insert d days) d.number n) : Peaks (insert d days) (max m n) := by
  intro k
  rw [exists_stretch_insert later, peaks k, reaches k]
  omega

/-- The run that ends at a later day is one longer than the run up to the day before. -/
theorem Reaches.insert {k n : Nat} (next : k + 1 = d.number) (reaches : Reaches days k n) :
    Reaches (insert d days) d.number (n + 1) := by
  intro m
  cases m with
  | zero => exact iff_of_true (stretch_zero _ _) (Nat.zero_le _)
  | succ m =>
    rw [stretch_insert_self next, reaches m]
    omega

theorem reaches_beyond {k : Nat} (last : ∀ e ∈ days, e.number < k) : Reaches days k 0 :=
  reaches_of_not (stretch_zero _ _) (stretch_beyond last 0)

end CodeDeck.Streak
