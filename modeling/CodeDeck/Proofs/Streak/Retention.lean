import CodeDeck.Proofs.Streak.Activity
import Mathlib.Data.List.Perm.Subperm

/-! How far the log of active days reaches back. It holds the latest day and the kept number of days before that one,
which is one day more than are meant to be kept. -/

namespace CodeDeck.Streak

/-- Does the list hold no more days than are kept, all of them among the days that are kept up to the last one? -/
def WithinRetention (days : List Date) (last : Date) : Prop :=
  days.length ≤ daysKept ∧ ∀ d ∈ days, ∃ i < daysKept, last.before? i = some d

section Counting

variable {days : List Date} {first count : Nat}

theorem distinct_numbers (ordered : days.Pairwise fun d e => d.number < e.number) : (days.map Date.number).Nodup :=
  (List.pairwise_map.2 ordered).imp Nat.ne_of_lt

theorem numbers_subset (within : ∀ d ∈ days, first ≤ d.number ∧ d.number < first + count) :
    days.map Date.number ⊆ List.range' first count := by
  intro k member
  obtain ⟨d, inside, rfl⟩ := List.mem_map.1 member
  exact List.mem_range'_1.2 (within d inside)

theorem length_le_of_within (ordered : days.Pairwise fun d e => d.number < e.number)
    (within : ∀ d ∈ days, first ≤ d.number ∧ d.number < first + count) : days.length ≤ count := by
  have bound := (distinct_numbers ordered).length_le_of_subset (numbers_subset within)
  rwa [List.length_map, List.length_range'] at bound

theorem le_length_iff (ordered : days.Pairwise fun d e => d.number < e.number)
    (within : ∀ d ∈ days, first ≤ d.number ∧ d.number < first + count) :
    count ≤ days.length ↔ ∀ k, first ≤ k → k < first + count → ∃ d ∈ days, d.number = k := by
  constructor
  · intro many k low high
    have part := (distinct_numbers ordered).subperm (numbers_subset within)
    have all := part.perm_of_length_le (by simpa using many)
    exact List.mem_map.1 (all.mem_iff.2 (List.mem_range'_1.2 ⟨low, high⟩))
  · intro all
    have whole : List.range' first count ⊆ days.map Date.number := fun k member => by
      obtain ⟨low, high⟩ := List.mem_range'_1.1 member
      exact List.mem_map.2 (all k low high)
    have distinct : (List.range' first count).Nodup := List.nodup_range'
    have bound := distinct.length_le_of_subset whole
    rwa [List.length_map, List.length_range'] at bound

end Counting

namespace Tally.Remembers

variable {t : Tally} {active : Set Date} {days : List Date} {last : Date}

theorem mem_iff_before (remembers : t.Remembers active days) (actives : ∀ d ∈ active, d.Valid) (member : last ∈ active)
    (latest : ∀ d ∈ active, d.number ≤ last.number) (d : Date) :
    d ∈ days ↔ d ∈ active ∧ ∃ i ≤ daysKept, last.before? i = some d := by
  rw [remembers.mem_iff]
  refine and_congr_right fun inside => ?_
  have order := latest d inside
  constructor
  · intro recent
    have bound := recent last member
    refine ⟨last.number - d.number, by omega, ?_⟩
    exact (Date.before?_eq_some_iff _ (actives last member)).2 ⟨actives d inside, by omega⟩
  · rintro ⟨i, near, reached⟩ e other
    have distance := ((Date.before?_eq_some_iff i (actives last member)).1 reached).2
    have bound := latest e other
    omega

theorem within (remembers : t.Remembers active days) (member : last ∈ active)
    (latest : ∀ d ∈ active, d.number ≤ last.number) :
    ∀ d ∈ days, last.number - daysKept ≤ d.number ∧ d.number < last.number - daysKept + (daysKept + 1) := by
  intro d inside
  obtain ⟨found, recent⟩ := (remembers.mem_iff d).1 inside
  have order := latest d found
  have bound := recent last member
  omega

theorem length_le_iff (remembers : t.Remembers active days) (actives : ∀ d ∈ active, d.Valid) (member : last ∈ active)
    (latest : ∀ d ∈ active, d.number ≤ last.number) (later : daysKept < last.number) :
    days.length ≤ daysKept ↔ ¬ RunTo active last (daysKept + 1) := by
  rw [runTo_iff actives (actives last member), ← Nat.not_lt, not_iff_not, ← Nat.succ_le_iff,
    le_length_iff remembers.ordered (remembers.within member latest)]
  constructor
  · intro all i inside
    obtain ⟨d, held, same⟩ := all (last.number - i) (by omega) (by omega)
    exact ⟨d, ((remembers.mem_iff d).1 held).1, by omega⟩
  · intro stretch k low high
    obtain ⟨d, inside, same⟩ := stretch (last.number - k) (by omega)
    refine ⟨d, (remembers.mem_iff d).2 ⟨inside, fun e other => ?_⟩, by omega⟩
    have bound := latest e other
    omega

theorem withinRetention_iff (remembers : t.Remembers active days) (actives : ∀ d ∈ active, d.Valid)
    (member : last ∈ active) (latest : ∀ d ∈ active, d.number ≤ last.number) (later : daysKept < last.number) :
    WithinRetention days last ↔ ∀ d ∈ active, last.before? daysKept ≠ some d := by
  have held := remembers.mem_iff_before actives member latest
  constructor
  · rintro ⟨_, near⟩ d inside reached
    obtain ⟨i, less, reached'⟩ := near d ((held d).2 ⟨inside, daysKept, Nat.le_refl _, reached⟩)
    have distance := ((Date.before?_eq_some_iff _ (actives last member)).1 reached).2
    have distance' := ((Date.before?_eq_some_iff i (actives last member)).1 reached').2
    omega
  · intro free
    have near (d : Date) (inside : d ∈ days) : ∃ i < daysKept, last.before? i = some d := by
      obtain ⟨found, i, less, reached⟩ := (held d).1 inside
      refine ⟨i, Nat.lt_of_le_of_ne less fun same => ?_, reached⟩
      exact free d found (same ▸ reached)
    have within (d : Date) (inside : d ∈ days) :
        last.number - daysKept + 1 ≤ d.number ∧ d.number < last.number - daysKept + 1 + daysKept := by
      obtain ⟨i, less, reached⟩ := near d inside
      have distance := ((Date.before?_eq_some_iff i (actives last member)).1 reached).2
      omega
    exact ⟨length_le_of_within remembers.ordered within, near⟩

end Tally.Remembers

variable {σ : Type} [KeyValueStore σ] [ReliableStore σ]

/-- Over an empty store that takes counts up to the length of the log of deeds, the log of active days holds the days with
a review from the sixtieth day before the latest one on. It keeps to its retention exactly when there was no review on that first day, and it holds more days than are kept
exactly when there was one on each of the sixty-one days. -/
theorem performAll_retains_iff (store : σ) (empty : KeyValueStore.get? store Key.streak = .ok none) (log : Log)
    (today : Date) (dates : ∀ d ∈ log.days ++ [today], d.Valid ∧ 2 ≤ d.year) (order : log.days.Pairwise (· ≤ ·))
    (takes : KeyValueStore.Takes σ (KeyValueStore.upTo log.length)) :
    ∃ left s, ∃ days : List Date, performAll store log = .ok left ∧ stored left today = .ok s ∧
      s.activeDays = .arr (days.map fun d => .str d.text) ∧ days.Nodup ∧
      (log.reviewDays = ∅ ∧ s.lastActiveDate = .str "" ∧ days = [] ∨
        ∃ last ∈ log.reviewDays, (∀ d ∈ log.reviewDays, d ≤ last) ∧ s.lastActiveDate = .str last.text ∧
          (∀ d, d ∈ days ↔ d ∈ log.reviewDays ∧ ∃ i ≤ 60, last.before? i = some d) ∧
          (WithinRetention days last ↔ ∀ d ∈ log.reviewDays, last.before? 60 ≠ some d) ∧
          (days.length ≤ daysKept ↔ ¬ RunTo log.reviewDays last 61)) := by
  have inLog (d : Date) (member : d ∈ log.days) : d.Valid ∧ 2 ≤ d.year :=
    dates d (List.mem_append_left _ member)
  obtain ⟨valid, year⟩ : today.Valid ∧ 2 ≤ today.year := dates today (by simp)
  obtain ⟨left, days, done, held, remembers⟩ := performAll_remembers empty inLog order takes
  have usable (d : Date) (active : d ∈ log.reviewDays) : d.Valid ∧ 2 ≤ d.year :=
    inLog d (Log.mem_days_of_reviewDays active)
  have actives (d : Date) (active : d ∈ log.reviewDays) : d.Valid := (usable d active).1
  have fields := (Tally.afterAll {} log).onDay_fields today
  have read := remembers.of_days fields.2.2.1
  refine ⟨left, _, days, done, held.stored valid (one_lt_number valid year), ?_, ?_, ?_⟩
  · rw [Tally.streak, read.written, List.map_map]
    rfl
  · exact remembers.distinct
  · have recounts := Tally.recounts_afterAll inLog order fun d member => Date.number_le_calendar (inLog d member).1
    cases recounts.tells with
    | never nothing last =>
      refine .inl ⟨nothing, congrArg Json.str (fields.2.1.trans last), List.eq_nil_iff_forall_not_mem.2 ?_⟩
      intro d held
      exact absurd ((remembers.mem_iff d).1 held).1 (nothing ▸ id)
    | since l _ _ member latest _ last =>
      have later := daysKept_lt_number (usable l member).1 (usable l member).2
      refine .inr ⟨l, member, fun d inside => ?_, congrArg Json.str (fields.2.1.trans last), ?_, ?_, ?_⟩
      · exact (Date.le_iff_number_le (actives d inside) (actives l member)).2 (latest d inside)
      · exact remembers.mem_iff_before actives member latest
      · exact remembers.withinRetention_iff actives member latest later
      · exact remembers.length_le_iff actives member latest later

def longAgo : Log := [(.swipe false, ⟨2023, 12, 31⟩), (.swipe true, ⟨2024, 3, 1⟩)]

theorem long_ago_dropped :
    KeyValueStore.get? (⟨[]⟩ : Memory) Key.streak = .ok none ∧
    (∀ d ∈ longAgo.days ++ [⟨2024, 3, 1⟩], d.Valid ∧ 2 ≤ d.year) ∧ longAgo.days.Pairwise (· ≤ ·) ∧
    KeyValueStore.Takes Memory (KeyValueStore.upTo longAgo.length) ∧
    ∃ left s, ∃ days : List Date, performAll (⟨[]⟩ : Memory) longAgo = .ok left ∧
      stored left ⟨2024, 3, 1⟩ = .ok s ∧ s.activeDays = .arr (days.map fun d => .str d.text) ∧
      ⟨2024, 3, 1⟩ ∈ days ∧ ⟨2023, 12, 31⟩ ∉ days ∧ WithinRetention days ⟨2024, 3, 1⟩ := by
  have dates : ∀ d ∈ longAgo.days ++ [⟨2024, 3, 1⟩], d.Valid ∧ 2 ≤ d.year := by decide
  have order : longAgo.days.Pairwise (· ≤ ·) := by
    simp only [Date.le_def]
    decide
  have takes : KeyValueStore.Takes Memory (KeyValueStore.upTo longAgo.length) :=
    .upTo_of_fits MemoryOf.taken_of_isWritable (by decide +kernel)
  have active (d : Date) : d ∈ longAgo.reviewDays ↔ d = ⟨2023, 12, 31⟩ ∨ d = ⟨2024, 3, 1⟩ := by
    simp [Log.reviewDays, longAgo, exists_or]
  obtain ⟨left, s, days, done, read, held, _, none | ⟨last, member, latest, _, holds, retained, _⟩⟩ :=
    performAll_retains_iff (⟨[]⟩ : Memory) rfl longAgo ⟨2024, 3, 1⟩ dates order takes
  · exact absurd ((active ⟨2024, 3, 1⟩).2 (.inr rfl)) (none.1 ▸ id)
  · obtain rfl : last = ⟨2024, 3, 1⟩ := by
      rcases (active last).1 member with rfl | same
      · exact absurd (latest ⟨2024, 3, 1⟩ ((active _).2 (.inr rfl))) (by rw [Date.le_def]; decide)
      · exact same
    have far : ∀ i ≤ 60, (⟨2024, 3, 1⟩ : Date).before? i ≠ some ⟨2023, 12, 31⟩ := by decide +kernel
    refine ⟨rfl, dates, order, takes, left, s, days, done, read, held, (holds _).2 ⟨member, 0, by decide, rfl⟩, ?_, ?_⟩
    · rintro inside
      obtain ⟨_, i, near, reached⟩ := (holds _).1 inside
      exact far i near reached
    · refine retained.2 fun d inside => ?_
      rcases (active d).1 inside with rfl | rfl
      · exact far 60 (Nat.le_refl _)
      · decide +kernel

def daily : Nat → Date → Log
  | 0, _ => []
  | n + 1, d => (.swipe false, d) :: daily n d.next

/-- Of sixty-one days in a row none is dropped. -/
theorem sixty_first_day_kept :
    ∃ left s, ∃ days : List Date, performAll (⟨[]⟩ : Memory) (daily 61 ⟨2024, 1, 1⟩) = .ok left ∧
      stored left ⟨2024, 3, 1⟩ = .ok s ∧ s.activeDays = .arr (days.map fun d => .str d.text) ∧ days.Nodup ∧
      s.lastActiveDate = .str (Date.text ⟨2024, 3, 1⟩) ∧ 60 < days.length ∧ ¬ WithinRetention days ⟨2024, 3, 1⟩ := by
  have dates : ∀ d ∈ (daily 61 ⟨2024, 1, 1⟩).days, d.Valid ∧ 2 ≤ d.year := by decide +kernel
  have order : (daily 61 ⟨2024, 1, 1⟩).days.Pairwise (· ≤ ·) := by
    simp only [Date.le_def]
    decide +kernel
  have whole : ∀ i < 61, ∃ entry ∈ daily 61 ⟨2024, 1, 1⟩, entry.1 = .swipe false ∧
      (⟨2024, 3, 1⟩ : Date).before? i = some entry.2 := by decide +kernel
  have run : RunTo (daily 61 ⟨2024, 1, 1⟩).reviewDays ⟨2024, 3, 1⟩ 61 := fun i inside => by
    obtain ⟨⟨_, d⟩, inLog, rfl, reached⟩ := whole i inside
    exact ⟨d, ⟨false, inLog⟩, reached⟩
  have member : ⟨2024, 3, 1⟩ ∈ (daily 61 ⟨2024, 1, 1⟩).reviewDays := by
    obtain ⟨d, active, reached⟩ := run 0 (by decide)
    exact Option.some.inj reached ▸ active
  have bound : ∀ d ∈ (daily 61 ⟨2024, 1, 1⟩).days, d ≤ ⟨2024, 3, 1⟩ := by
    simp only [Date.le_def]
    decide +kernel
  have past (d : Date) (inLog : d ∈ (daily 61 ⟨2024, 1, 1⟩).days) : d.number ≤ Date.number ⟨2024, 3, 1⟩ :=
    Date.number_le_of_le (dates d inLog).1 (bound d inLog)
  have actives (d : Date) (active : d ∈ (daily 61 ⟨2024, 1, 1⟩).reviewDays) : d.Valid :=
    (dates d (Log.mem_days_of_reviewDays active)).1
  have latest (d : Date) (active : d ∈ (daily 61 ⟨2024, 1, 1⟩).reviewDays) :=
    past d (Log.mem_days_of_reviewDays active)
  have valid := actives _ member
  have later : daysKept < Date.number ⟨2024, 3, 1⟩ := daysKept_lt_number valid (by decide)
  have empty : KeyValueStore.get? (⟨[]⟩ : Memory) Key.streak = .ok none := rfl
  have takes : KeyValueStore.Takes Memory (KeyValueStore.upTo (daily 61 ⟨2024, 1, 1⟩).length) :=
    .upTo_of_fits MemoryOf.taken_of_isWritable (by decide +kernel)
  obtain ⟨left, days, done, held, remembers⟩ := performAll_remembers empty dates order takes
  have fields := (Tally.afterAll {} (daily 61 ⟨2024, 1, 1⟩)).onDay_fields ⟨2024, 3, 1⟩
  have ends := ((Tally.recounts_afterAll dates order past).tells.endsOn_iff_mem actives valid latest).2 member
  have many : ¬ days.length ≤ daysKept := fun few =>
    (remembers.length_le_iff actives member latest later).1 few run
  refine ⟨left, _, days, done, held.stored valid (one_lt_number valid (by decide)), ?_, ?_, ?_, ?_, ?_⟩
  · rw [Tally.streak, fields.2.2.1, remembers.written, List.map_map]
    rfl
  · exact remembers.distinct
  · exact congrArg Json.str (fields.2.1.trans ends)
  · exact Nat.not_le.1 many
  · exact fun within => many within.1

end CodeDeck.Streak
