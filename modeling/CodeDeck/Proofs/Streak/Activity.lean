import CodeDeck.Proofs.Calendar.Order
import CodeDeck.Proofs.Streak.History

/-! The log of active days. It holds the days with a review that lie at most the kept number of days before the
latest of them, in their order, so that the days that end with today are shown as they were. -/

namespace CodeDeck.Streak

namespace Tally

/-- The log of active days holds these days: the ones with a review that are not dropped since the latest one. -/
structure Remembers (t : Tally) (active : Set Date) (days : List Date) : Prop where
  written : t.days = days.map Date.text
  ordered : days.Pairwise fun d e => d.number < e.number
  mem_iff : ∀ d, d ∈ days ↔ d ∈ active ∧ ∀ e ∈ active, e.number ≤ d.number + daysKept

variable {t u : Tally} {active : Set Date} {days : List Date} {now : Nat} {today : Date}

theorem Tells.number_le (tells : Tells t active now) : ∀ d ∈ active, d.number ≤ now := by
  intro d member
  cases tells with
  | never nothing => exact absurd member (nothing ▸ id)
  | since l _ _ _ latest past => exact Nat.le_trans (latest d member) past

theorem Tells.endsOn_iff_mem (tells : Tells t active now) (actives : ∀ d ∈ active, d.Valid) (valid : today.Valid)
    (past : ∀ d ∈ active, d.number ≤ today.number) : t.endsOn today ↔ today ∈ active := by
  cases tells with
  | never nothing last => exact iff_of_false (not_endsOn last today) (nothing ▸ id)
  | since l _ _ member latest _ last =>
    rw [endsOn_iff last]
    constructor
    · rintro rfl
      exact member
    · intro inside
      exact Date.eq_of_number_eq (actives l member) valid (Nat.le_antisymm (past l member) (latest today inside))

theorem Remembers.of_days (remembers : t.Remembers active days) (same : u.days = t.days) :
    u.Remembers active days := { remembers with written := same.trans remembers.written }

theorem Remembers.distinct (remembers : t.Remembers active days) : days.Nodup :=
  remembers.ordered.imp fun less same => Nat.ne_of_lt less (congrArg Date.number same)

theorem Remembers.text_mem_iff (remembers : t.Remembers active days) (d : Date) : d.text ∈ t.days ↔ d ∈ days := by
  rw [remembers.written, List.mem_map_of_injective fun _ _ => Date.text_inj]

theorem days_swiped (t : Tally) (mastered : Bool) (today : Date) :
    (t.swiped mastered today).days = if t.endsOn today then t.days else t.logged today := by
  have same : (t.counted mastered).endsOn today ↔ t.endsOn today := Iff.rfl
  simp only [swiped, extended, same]
  split <;> rfl

theorem Remembers.logged (remembers : t.Remembers active days) (actives : ∀ d ∈ active, d.Valid)
    (valid : today.Valid) (later : daysKept < today.number) (past : ∀ d ∈ active, d.number < today.number) :
    t.logged today = ((days ++ [today]).filter fun d => today.number ≤ d.number + daysKept).map Date.text := by
  obtain ⟨first, before, validFirst, step⟩ := Date.before?_number daysKept valid later
  have new : today.text ∉ t.days := by
    rw [remembers.text_mem_iff, remembers.mem_iff]
    exact fun inside => Nat.lt_irrefl _ (past today inside.1)
  have appended : t.days ++ [today.text] = (days ++ [today]).map Date.text := by
    rw [remembers.written, List.map_append, List.map_singleton]
  have kept : ∀ d ∈ days ++ [today], decide (first.text ≤ d.text) = decide (today.number ≤ d.number + daysKept) := by
    intro d member
    have validD : d.Valid := by
      rcases List.mem_append.1 member with old | new
      · exact actives d ((remembers.mem_iff d).1 old).1
      · exact List.mem_singleton.1 new ▸ valid
    rw [decide_eq_decide, Date.text_le_iff validFirst validD]
    omega
  have cutoff : ((today.before? daysKept).map Date.text).getD "" = first.text := by
    rw [before, Option.map_some, Option.getD_some]
  simp only [Tally.logged, if_neg new, appended, cutoff, List.filter_map, Function.comp_def]
  rw [List.filter_congr kept]

theorem Remembers.swiped (remembers : t.Remembers active days) (tells : t.Tells active now)
    (actives : ∀ d ∈ active, d.Valid) (valid : today.Valid) (later : daysKept < today.number)
    (past : ∀ d ∈ active, d.number ≤ today.number) (mastered : Bool) :
    ∃ days', (t.swiped mastered today).Remembers (insert today active) days' := by
  have ends := tells.endsOn_iff_mem actives valid past
  have swiped := t.days_swiped mastered today
  by_cases known : today ∈ active
  · rw [if_pos (ends.2 known)] at swiped
    rw [Set.insert_eq_of_mem known]
    exact ⟨days, remembers.of_days swiped⟩
  · have earlier : ∀ d ∈ active, d.number < today.number := fun d member =>
      Nat.lt_of_le_of_ne (past d member) fun same =>
        known (Date.eq_of_number_eq (actives d member) valid same ▸ member)
    have logged := remembers.logged actives valid later earlier
    rw [if_neg fun last => known (ends.1 last), logged] at swiped
    refine ⟨_, swiped, ?_, fun d => ?_⟩
    · refine List.Pairwise.filter _ (List.pairwise_append.2 ⟨remembers.ordered, List.pairwise_singleton .., ?_⟩)
      intro d member e same
      obtain rfl := List.mem_singleton.1 same
      exact earlier d ((remembers.mem_iff d).1 member).1
    · rw [List.mem_filter, List.mem_append, List.mem_singleton, remembers.mem_iff, decide_eq_true_eq,
        Set.forall_mem_insert, Set.mem_insert_iff]
      constructor
      · rintro ⟨⟨member, recent⟩ | rfl, bound⟩
        · exact ⟨.inr member, bound, recent⟩
        · exact ⟨.inl rfl, bound, fun e inside => Nat.le_add_right_of_le (past e inside)⟩
      · rintro ⟨rfl | member, bound, recent⟩
        · exact ⟨.inr rfl, bound⟩
        · exact ⟨.inl ⟨member, recent⟩, bound⟩

theorem Remembers.after {log : Log} (remembers : t.Remembers log.reviewDays days)
    (tells : t.Tells log.reviewDays now) (actives : ∀ d ∈ log.reviewDays, d.Valid) (valid : today.Valid)
    (later : daysKept < today.number) (order : now ≤ today.number) (deed : Deed) :
    ∃ days', (t.after deed today).Remembers (Log.reviewDays (log ++ [(deed, today)])) days' := by
  have same : (t.onDay today).days = t.days := (t.onDay_fields today).2.2.1
  have second : 1 < today.number := Nat.lt_of_le_of_lt (by decide) later
  have read := tells.onDay actives valid second order
  cases deed with
  | swipe mastered =>
    rw [Log.reviewDays_append_swipe]
    exact (remembers.of_days same).swiped read actives valid later read.number_le mastered
  | repo =>
    rw [Log.reviewDays_append_other rfl]
    exact ⟨days, remembers.of_days same⟩
  | look =>
    rw [Log.reviewDays_append_other rfl]
    exact ⟨days, remembers⟩

theorem remembers_nil : Remembers {} ∅ [] where
  written := rfl
  ordered := .nil
  mem_iff _ := iff_of_false List.not_mem_nil fun inside => inside.1

/-- After a log whose days come in order, the log of active days holds the days that it should. -/
theorem remembers_afterAll {log : Log} (dates : ∀ d ∈ log.days, d.Valid ∧ 2 ≤ d.year)
    (order : log.days.Pairwise (· ≤ ·)) : ∃ days, (afterAll {} log).Remembers log.reviewDays days := by
  induction log using List.reverseRecOn with
  | nil =>
    have none : Log.reviewDays [] = ∅ := by simp [Log.reviewDays]
    exact ⟨[], none ▸ remembers_nil⟩
  | append_singleton past entry ih =>
    obtain ⟨deed, today⟩ := entry
    have split : Log.days (past ++ [(deed, today)]) = Log.days past ++ [today] := List.map_append
    rw [split] at dates order
    obtain ⟨inOrder, _, before⟩ := List.pairwise_append.1 order
    have inPast (d : Date) (member : d ∈ Log.days past) : d.Valid ∧ 2 ≤ d.year :=
      dates d (List.mem_append_left _ member)
    obtain ⟨valid, year⟩ : today.Valid ∧ 2 ≤ today.year := dates today (by simp)
    have recounts := recounts_afterAll inPast inOrder fun d member =>
      Date.number_le_of_le (inPast d member).1 (before d member today (by simp))
    obtain ⟨days, remembers⟩ := ih inPast inOrder
    rw [afterAll_append]
    exact remembers.after recounts.tells (fun d active => (inPast d (Log.mem_days_of_reviewDays active)).1) valid
      (daysKept_lt_number valid year) (Nat.le_refl _) deed

theorem Remembers.increasing (remembers : t.Remembers active days) (actives : ∀ d ∈ active, d.Valid) :
    (days.map Date.text).Pairwise (· < ·) := by
  rw [List.pairwise_map]
  refine remembers.ordered.imp_of_mem fun {d e} left right less => ?_
  have valid (d : Date) (member : d ∈ days) : d.Valid := actives d ((remembers.mem_iff d).1 member).1
  exact (Date.text_lt_iff (valid d left) (valid e right)).2 less

theorem streak_activity (t : Tally) {dates : List Date} {n : Nat} (through : today.daysThrough? n [] = some dates) :
    t.streak.activity today (.int n) = .ok (dates.map fun d => (d, decide (d.text ∈ t.days))) := by
  have keyed : t.streak.activeDays.keyedContents = .ok (t.days.map .str) := by
    have keys : (t.days.map Json.str).all Json.isKey = true := by simp
    simp only [Json.keyedContents, streak, Json.contents, bind, Except.bind, keys, if_true]
    rfl
  have count : (Json.int n).asWhole = .ok (n : Int) := Json.asWhole_of_whole? rfl
  simp only [activity, keyed, count, Int.toNat_natCast, through, any_same_str, bind, Except.bind]
  rfl

end Tally

variable {σ : Type} [KeyValueStore σ] [ReliableStore σ]

theorem performAll_remembers {store : σ} (empty : KeyValueStore.get? store Key.streak = .ok none) {log : Log}
    (dates : ∀ d ∈ log.days, d.Valid ∧ 2 ≤ d.year) (order : log.days.Pairwise (· ≤ ·))
    (takes : KeyValueStore.Takes σ (KeyValueStore.upTo log.length)) :
    ∃ left days, performAll store log = .ok left ∧ (Tally.afterAll {} log).HeldBy left ∧
      (Tally.afterAll {} log).Remembers log.reviewDays days := by
  obtain ⟨left, done, held⟩ := performAll_holds empty dates takes
  obtain ⟨days, remembers⟩ := Tally.remembers_afterAll dates order
  exact ⟨left, days, done, held, remembers⟩

/-- Over an empty store that takes counts up to the length of the log, the days up to today are shown with what happened
on them: a day is active exactly when there was a review on it. The log of active days is in order. -/
theorem performAll_heatmap (store : σ) (empty : KeyValueStore.get? store Key.streak = .ok none) (log : Log)
    (today : Date) (dates : ∀ d ∈ log.days ++ [today], d.Valid ∧ 2 ≤ d.year)
    (order : (log.days ++ [today]).Pairwise (· ≤ ·)) (takes : KeyValueStore.Takes σ (KeyValueStore.upTo log.length))
    (n : Nat) (short : n ≤ 60) :
    ∃ left s window, performAll store log = .ok left ∧ stored left today = .ok s ∧
      s.activity today (.int n) = .ok window ∧
      (window.reverse.map fun day => some day.1) = (List.range n).map (fun i => today.before? i) ∧
      (∀ day ∈ window, day.2 = true ↔ day.1 ∈ log.reviewDays) ∧
      ∃ texts : List String, s.activeDays = .arr (texts.map .str) ∧ texts.Pairwise (· < ·) := by
  obtain ⟨inOrder, _, before⟩ := List.pairwise_append.1 order
  have inLog (d : Date) (member : d ∈ log.days) : d.Valid ∧ 2 ≤ d.year :=
    dates d (List.mem_append_left _ member)
  obtain ⟨valid, year⟩ : today.Valid ∧ 2 ≤ today.year := dates today (by simp)
  obtain ⟨left, days, done, held, remembers⟩ := performAll_remembers empty inLog inOrder takes
  have actives (d : Date) (active : d ∈ log.reviewDays) : d.Valid ∧ d.number ≤ today.number := by
    have member := Log.mem_days_of_reviewDays active
    exact ⟨(inLog d member).1, Date.number_le_of_le (inLog d member).1 (before d member today (by simp))⟩
  have read := remembers.of_days ((Tally.afterAll {} log).onDay_fields today).2.2.1
  have enough : n ≤ today.number := Nat.le_trans short (Nat.le_of_lt (daysKept_lt_number valid year))
  obtain ⟨shown, through, backwards⟩ := Date.exists_daysThrough? n valid enough []
  rw [List.append_nil] at through
  refine ⟨left, _, _, done, held.stored valid (one_lt_number valid year), Tally.streak_activity _ through, ?_, ?_,
    days.map Date.text, ?_, read.increasing fun d active => (actives d active).1⟩
  · rw [← backwards, ← List.map_reverse, List.map_map]
    rfl
  · intro day member
    obtain ⟨d, inside, rfl⟩ := List.mem_map.1 member
    have placed : some d ∈ (List.range n).map fun i => today.before? i :=
      backwards ▸ List.mem_map_of_mem (List.mem_reverse.2 inside)
    obtain ⟨i, near, reached⟩ := List.mem_map.1 placed
    have distance := ((Date.before?_eq_some_iff i valid).1 reached).2
    rw [List.mem_range] at near
    change decide _ = true ↔ d ∈ log.reviewDays
    rw [decide_eq_true_eq, read.text_mem_iff, remembers.mem_iff]
    refine and_iff_left_of_imp fun active e other => ?_
    have kept : daysKept = 60 := rfl
    have bound := (actives e other).2
    omega
  · rw [Tally.streak, read.written]

def leapDay : Log :=
  [(.swipe true, ⟨2024, 2, 28⟩), (.look, ⟨2024, 2, 29⟩), (.swipe false, ⟨2024, 3, 1⟩), (.repo, ⟨2024, 3, 1⟩)]

theorem leap_day_shown :
    KeyValueStore.get? (⟨[]⟩ : Memory) Key.streak = .ok none ∧
    (∀ d ∈ leapDay.days ++ [⟨2024, 3, 2⟩], d.Valid ∧ 2 ≤ d.year) ∧
    (leapDay.days ++ [(⟨2024, 3, 2⟩ : Date)]).Pairwise (· ≤ ·) ∧
    KeyValueStore.Takes Memory (KeyValueStore.upTo leapDay.length) ∧ 3 ≤ 60 ∧
    ∃ left s, performAll (⟨[]⟩ : Memory) leapDay = .ok left ∧ stored left ⟨2024, 3, 2⟩ = .ok s ∧
      s.activity ⟨2024, 3, 2⟩ (.int 3) =
        .ok [(⟨2024, 2, 29⟩, false), (⟨2024, 3, 1⟩, true), (⟨2024, 3, 2⟩, false)] := by
  have dates : ∀ d ∈ leapDay.days ++ [⟨2024, 3, 2⟩], d.Valid ∧ 2 ≤ d.year := by decide
  have order : (leapDay.days ++ [(⟨2024, 3, 2⟩ : Date)]).Pairwise (· ≤ ·) := by
    simp only [Date.le_def]
    decide
  have takes : KeyValueStore.Takes Memory (KeyValueStore.upTo leapDay.length) :=
    .upTo_of_fits MemoryOf.taken_of_isWritable (by decide +kernel)
  have short : 3 ≤ 60 := by decide
  obtain ⟨left, s, window, done, read, shown, _⟩ :=
    performAll_heatmap (⟨[]⟩ : Memory) rfl leapDay ⟨2024, 3, 2⟩ dates order takes 3 short
  have figures : (((performAll (⟨[]⟩ : Memory) leapDay).bind fun left => stored left ⟨2024, 3, 2⟩).bind
      fun s => s.activity ⟨2024, 3, 2⟩ (.int 3)).toOption =
        some [(⟨2024, 2, 29⟩, false), (⟨2024, 3, 1⟩, true), (⟨2024, 3, 2⟩, false)] := by
    decide +kernel
  rw [done] at figures
  simp only [Except.bind, read] at figures
  refine ⟨rfl, dates, order, takes, short, left, s, done, read, ?_⟩
  have same : s.activity ⟨2024, 3, 2⟩ (.int 3) = .ok window := shown
  rw [same, Except.toOption, Option.some.injEq] at figures
  rw [same, figures]

end CodeDeck.Streak
