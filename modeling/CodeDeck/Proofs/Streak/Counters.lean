import CodeDeck.Proofs.Streak.Activity

/-! The counters of the streak when the days come in any order, as they do with a clock that is set back. No run is
longer than the reviews that were counted, no counter ever falls, and the last active day is in the log of active days,
which names no day twice. -/

namespace CodeDeck.Streak

section Reports

variable {σ : Type} [KeyValueStore σ]

def reports (store : σ) : Log → List (Except Fault Streak)
  | [] => []
  | (deed, today) :: rest =>
    (perform store deed today).1 :: reports (perform store deed today).2 rest

end Reports

namespace Tally

/-- The counters fit together, and so do the last active day and the log of active days. -/
structure Sound (t : Tally) : Prop where
  current_nonneg : 0 ≤ t.current
  current_le : t.current ≤ t.longest
  longest_le : t.longest ≤ t.swipes
  masteries_le : t.masteries ≤ t.swipes
  distinct : t.days.Nodup
  last_active : t.lastActive = "" ∨ t.lastActive ∈ t.days

structure AtMost (t u : Tally) : Prop where
  longest : t.longest ≤ u.longest
  swipes : t.swipes ≤ u.swipes
  masteries : t.masteries ≤ u.masteries
  repos : t.repos ≤ u.repos

variable {t u v : Tally} {today : Date}

theorem AtMost.trans (first : t.AtMost u) (second : u.AtMost v) : t.AtMost v where
  longest := Int.le_trans first.longest second.longest
  swipes := Int.le_trans first.swipes second.swipes
  masteries := Int.le_trans first.masteries second.masteries
  repos := Int.le_trans first.repos second.repos

theorem AtMost.refl (t : Tally) : t.AtMost t := ⟨Int.le_refl _, Int.le_refl _, Int.le_refl _, Int.le_refl _⟩

theorem sound_empty : Sound {} where
  current_nonneg := Int.le_refl 0
  current_le := Int.le_refl 0
  longest_le := Int.le_refl 0
  masteries_le := Int.le_refl 0
  distinct := List.nodup_nil
  last_active := .inl rfl

section Reading

theorem Sound.onDay (sound : t.Sound) (today : Date) : (t.onDay today).Sound := by
  obtain ⟨longest, last, days, swipes, masteries, _⟩ := t.onDay_fields today
  have bounds : 0 ≤ (t.onDay today).current ∧ (t.onDay today).current ≤ t.longest := by
    have nonneg := sound.current_nonneg
    have bound := sound.current_le
    rcases t.current_onDay today with same | broken <;> omega
  exact {
    current_nonneg := bounds.1
    current_le := longest ▸ bounds.2
    longest_le := by
      rw [longest, swipes]
      exact sound.longest_le
    masteries_le := by
      rw [masteries, swipes]
      exact sound.masteries_le
    distinct := days ▸ sound.distinct
    last_active := by
      rw [last, days]
      exact sound.last_active }

theorem atMost_onDay (t : Tally) (today : Date) : t.AtMost (t.onDay today) := by
  obtain ⟨longest, _, _, swipes, masteries, repos⟩ := t.onDay_fields today
  exact ⟨Int.le_of_eq longest.symm, Int.le_of_eq swipes.symm, Int.le_of_eq masteries.symm, Int.le_of_eq repos.symm⟩

theorem onDay_atMost (t : Tally) (today : Date) : (t.onDay today).AtMost t := by
  obtain ⟨longest, _, _, swipes, masteries, repos⟩ := t.onDay_fields today
  exact ⟨Int.le_of_eq longest, Int.le_of_eq swipes, Int.le_of_eq masteries, Int.le_of_eq repos⟩

end Reading

section Swiping

theorem mem_logged (t : Tally) (valid : today.Valid) (later : daysKept < today.number) :
    today.text ∈ t.logged today := by
  obtain ⟨first, before, validFirst, step⟩ := Date.before?_number daysKept valid later
  have kept : first.text ≤ today.text := (Date.text_le_iff validFirst valid).2 (by omega)
  by_cases known : today.text ∈ t.days
  · rwa [logged, if_pos known]
  · rw [logged, if_neg known, before, Option.map_some, Option.getD_some]
    exact List.mem_filter.2 ⟨List.mem_append_right _ List.mem_cons_self, decide_eq_true kept⟩

theorem nodup_logged (distinct : t.days.Nodup) : (t.logged today).Nodup := by
  by_cases known : today.text ∈ t.days
  · rwa [logged, if_pos known]
  · rw [logged, if_neg known]
    apply List.Pairwise.filter
    apply List.nodup_append.2
    refine ⟨distinct, List.pairwise_singleton .., fun day member other last same => ?_⟩
    obtain rfl := List.mem_singleton.1 last
    exact known (same ▸ member)

theorem Sound.mem_days_swiped (sound : t.Sound) (mastered : Bool) (valid : today.Valid)
    (later : daysKept < today.number) : today.text ∈ (t.swiped mastered today).days := by
  rw [days_swiped]
  split
  · next ends =>
    have last : t.lastActive = today.text := ends
    exact last ▸ sound.last_active.resolve_left fun empty => today.text_ne_empty (last ▸ empty)
  · exact t.mem_logged valid later

theorem Sound.swiped (sound : t.Sound) (mastered : Bool) (valid : today.Valid) (later : daysKept < today.number) :
    (t.swiped mastered today).Sound := by
  obtain ⟨longest, swipes, masteries, _⟩ := (t.counted mastered).extended_fields today
  have current := (t.counted mastered).current_extended today
  have nonneg := sound.current_nonneg
  have bound := sound.current_le
  have counted := sound.longest_le
  have last := (t.counted mastered).lastActive_extended today
  have moreMasteries : (t.counted mastered).masteries ≤ t.swipes + 1 := by
    have few := sound.masteries_le
    cases mastered with
    | true => exact Int.add_le_add_right few 1
    | false => exact Int.le_trans few (Int.le_add_one (Int.le_refl _))
  have sameCurrent : (t.counted mastered).current = t.current := rfl
  have sameLongest : (t.counted mastered).longest = t.longest := rfl
  have oneSwipe : (t.counted mastered).swipes = t.swipes + 1 := rfl
  constructor
  · simp only [Tally.swiped]
    omega
  · exact Int.le_max_right ..
  · simp only [Tally.swiped]
    omega
  · simp only [Tally.swiped]
    omega
  · rw [days_swiped]
    split
    · exact sound.distinct
    · exact nodup_logged sound.distinct
  · exact .inr (last ▸ sound.mem_days_swiped mastered valid later)

theorem atMost_swiped (t : Tally) (mastered : Bool) (today : Date) : t.AtMost (t.swiped mastered today) := by
  obtain ⟨longest, swipes, masteries, repos⟩ := (t.counted mastered).extended_fields today
  constructor
  · exact longest ▸ Int.le_max_left ..
  · rw [Tally.swiped, swipes]
    exact Int.le_add_one (Int.le_refl _)
  · rw [Tally.swiped, masteries]
    cases mastered with
    | true => exact Int.le_add_one (Int.le_refl _)
    | false => exact Int.le_refl _
  · exact Int.le_of_eq repos.symm

end Swiping

section Deeds

theorem Sound.withRepo (sound : t.Sound) : t.withRepo.Sound where
  current_nonneg := sound.current_nonneg
  current_le := sound.current_le
  longest_le := sound.longest_le
  masteries_le := sound.masteries_le
  distinct := sound.distinct
  last_active := sound.last_active

theorem atMost_withRepo (t : Tally) : t.AtMost t.withRepo :=
  ⟨Int.le_refl _, Int.le_refl _, Int.le_refl _, Int.le_add_one (Int.le_refl _)⟩

theorem Sound.after (sound : t.Sound) (valid : today.Valid) (later : daysKept < today.number) (deed : Deed) :
    (t.after deed today).Sound := by
  cases deed with
  | swipe mastered => exact (sound.onDay today).swiped mastered valid later
  | repo => exact (sound.onDay today).withRepo
  | look => exact sound

theorem atMost_after (t : Tally) (deed : Deed) (today : Date) : t.AtMost (t.after deed today) := by
  have read := t.atMost_onDay today
  cases deed with
  | swipe mastered => exact read.trans (atMost_swiped ..)
  | repo => exact read.trans (atMost_withRepo _)
  | look => exact .refl t

theorem reported_cases (t : Tally) (deed : Deed) (today : Date) :
    t.reported deed today = t.after deed today ∨
      t.reported deed today = t.onDay today ∧ t.after deed today = t := by
  cases deed with
  | swipe mastered => exact .inl rfl
  | repo => exact .inl rfl
  | look => exact .inr ⟨rfl, rfl⟩

theorem Sound.reported (sound : t.Sound) (valid : today.Valid) (later : daysKept < today.number) (deed : Deed) :
    (t.reported deed today).Sound := by
  rcases t.reported_cases deed today with stored | ⟨read, _⟩
  · exact stored ▸ sound.after valid later deed
  · exact read ▸ sound.onDay today

theorem atMost_reported (t : Tally) (deed : Deed) (today : Date) : t.AtMost (t.reported deed today) := by
  rcases t.reported_cases deed today with stored | ⟨read, _⟩
  · exact stored ▸ t.atMost_after deed today
  · exact read ▸ t.atMost_onDay today

theorem reported_atMost (t : Tally) (deed : Deed) (today : Date) :
    (t.reported deed today).AtMost (t.after deed today) := by
  rcases t.reported_cases deed today with stored | ⟨read, same⟩
  · exact stored ▸ AtMost.refl _
  · rw [read, same]
    exact t.onDay_atMost today

def reports (t : Tally) : Log → List Tally
  | [] => []
  | (deed, today) :: rest => t.reported deed today :: (t.after deed today).reports rest

theorem Sound.afterAll (sound : t.Sound) {log : Log} (dates : ∀ d ∈ log.days, d.Valid ∧ 2 ≤ d.year) :
    (t.afterAll log).Sound := by
  induction log generalizing t with
  | nil => exact sound
  | cons entry rest ih =>
    obtain ⟨valid, year⟩ := dates entry.2 List.mem_cons_self
    have stored := sound.after valid (daysKept_lt_number valid year) entry.1
    exact ih stored fun d member => dates d (List.mem_cons_of_mem _ member)

theorem Sound.reports (sound : t.Sound) {log : Log} (dates : ∀ d ∈ log.days, d.Valid ∧ 2 ≤ d.year) :
    ∀ u ∈ t.reports log, u.Sound := by
  induction log generalizing t with
  | nil => exact fun u member => absurd member List.not_mem_nil
  | cons entry rest ih =>
    obtain ⟨valid, year⟩ := dates entry.2 List.mem_cons_self
    have later := daysKept_lt_number valid year
    have others := ih (sound.after valid later entry.1) fun d member => dates d (List.mem_cons_of_mem _ member)
    exact List.forall_mem_cons.2 ⟨sound.reported valid later entry.1, others⟩

theorem atMost_afterAll (t : Tally) (log : Log) : t.AtMost (t.afterAll log) := by
  induction log generalizing t with
  | nil => exact AtMost.refl t
  | cons entry rest ih => exact (t.atMost_after entry.1 entry.2).trans (ih _)

/-- Every report lies between the tallies in front of the log and behind it. -/
theorem reports_between (t : Tally) (log : Log) : ∀ u ∈ t.reports log, t.AtMost u ∧ u.AtMost (t.afterAll log) := by
  induction log generalizing t with
  | nil => exact fun u member => absurd member List.not_mem_nil
  | cons entry rest ih =>
    obtain ⟨deed, today⟩ := entry
    have stored := t.atMost_after deed today
    refine List.forall_mem_cons.2 ⟨⟨t.atMost_reported deed today, ?_⟩, fun u member => ?_⟩
    · exact (t.reported_atMost deed today).trans (atMost_afterAll _ rest)
    · obtain ⟨above, below⟩ := ih (t.after deed today) u member
      exact ⟨stored.trans above, below⟩

theorem reports_pairwise (t : Tally) (log : Log) : (t.reports log).Pairwise AtMost := by
  induction log generalizing t with
  | nil => exact .nil
  | cons entry rest ih =>
    refine .cons (fun u member => ?_) (ih _)
    have next := reports_between (t.after entry.1 entry.2) rest u member
    exact (t.reported_atMost entry.1 entry.2).trans next.1

variable {σ : Type} [KeyValueStore σ] [ReliableStore σ]

theorem HeldBy.reports {store : σ} (held : t.HeldBy store) {log : Log}
    (dates : ∀ d ∈ log.days, d.Valid ∧ 2 ≤ d.year) {n : Nat} (within : t.Within n)
    (takes : KeyValueStore.Takes σ (KeyValueStore.upTo (n + log.length))) :
    Streak.reports store log = (t.reports log).map fun u => .ok u.streak := by
  induction log generalizing t store n with
  | nil => rfl
  | cons entry rest ih =>
    obtain ⟨deed, today⟩ := entry
    obtain ⟨valid, year⟩ := dates today List.mem_cons_self
    rw [List.length_cons] at takes
    have first : KeyValueStore.Takes σ (KeyValueStore.upTo (n + 1)) := takes.upTo_mono (by omega)
    have more : KeyValueStore.Takes σ (KeyValueStore.upTo (n + 1 + rest.length)) := takes.upTo_mono (by omega)
    obtain ⟨left, done, held'⟩ := held.perform valid (daysKept_lt_number valid year) within first deed
    have others :=
      ih held' (fun d member => dates d (List.mem_cons_of_mem _ member)) (within.after deed today) more
    rw [Streak.reports, done, others, Tally.reports, List.map_cons]

end Deeds

end Tally

variable {σ : Type} [KeyValueStore σ] [ReliableStore σ]

/-- Over an empty store that takes counts up to the length of the log, every deed succeeds, on whatever days. All that is
reported on the way and all that is stored in the end is sound, and no counter falls from one report to a later one or to
what is stored. -/
theorem reports_sound (store : σ) (empty : KeyValueStore.get? store Key.streak = .ok none) (log : Log)
    (dates : ∀ d ∈ log.days, d.Valid ∧ 2 ≤ d.year)
    (takes : KeyValueStore.Takes σ (KeyValueStore.upTo log.length)) :
    ∃ left, ∃ kept : Tally, ∃ reported : List Tally,
      performAll store log = .ok left ∧ kept.HeldBy left ∧ kept.Sound ∧
      reports store log = reported.map (fun t => .ok t.streak) ∧ (∀ t ∈ reported, t.Sound ∧ t.AtMost kept) ∧
      reported.Pairwise Tally.AtMost := by
  have nothing : Tally.HeldBy {} store := .inr ⟨empty, rfl⟩
  obtain ⟨left, done, held⟩ := performAll_holds empty dates takes
  rw [← Nat.zero_add log.length] at takes
  have below := Tally.reports_between {} log
  refine ⟨left, Tally.afterAll {} log, Tally.reports {} log, done, held, Tally.sound_empty.afterAll dates,
    nothing.reports dates Tally.within_empty takes, fun t member => ?_, Tally.reports_pairwise {} log⟩
  exact ⟨Tally.sound_empty.reports dates t member, (below t member).2⟩

/-- A clock that is set back by a day, then by a year, and put right again. -/
def setBack : Log :=
  [(.swipe true, ⟨2024, 3, 1⟩), (.swipe false, ⟨2024, 2, 29⟩), (.look, ⟨2023, 1, 1⟩), (.swipe true, ⟨2024, 3, 1⟩),
    (.repo, ⟨2025, 1, 1⟩)]

theorem set_back_sound :
    KeyValueStore.get? (⟨[]⟩ : Memory) Key.streak = .ok none ∧ (∀ d ∈ setBack.days, d.Valid ∧ 2 ≤ d.year) ∧
    KeyValueStore.Takes Memory (KeyValueStore.upTo setBack.length) ∧
    (∃ reported : List Tally, reports (⟨[]⟩ : Memory) setBack = reported.map (fun t => .ok t.streak) ∧
      (∀ t ∈ reported, t.Sound) ∧ reported.Pairwise Tally.AtMost) ∧
    ((reports (⟨[]⟩ : Memory) setBack).map fun report =>
      report.toOption.map fun s => (s.current.whole?, s.longest.whole?, s.totalSwipes.whole?)) =
        [some (some 1, some 1, some 1), some (some 1, some 1, some 2), some (some 0, some 1, some 2),
          some (some 2, some 2, some 3), some (some 0, some 2, some 3)] := by
  have dates : ∀ d ∈ setBack.days, d.Valid ∧ 2 ≤ d.year := by decide
  have takes : KeyValueStore.Takes Memory (KeyValueStore.upTo setBack.length) :=
    .upTo_of_fits MemoryOf.taken_of_isWritable (by decide +kernel)
  obtain ⟨left, kept, reported, _, _, _, same, sound, growing⟩ := reports_sound (⟨[]⟩ : Memory) rfl setBack dates takes
  exact ⟨rfl, dates, takes, ⟨reported, same, fun t member => (sound t member).1, growing⟩, by decide +kernel⟩

end CodeDeck.Streak
