import CodeDeck.Proofs.Streak.Days
import Mathlib.Data.List.Induction

/-! The streak as a function of what was recorded. Whatever else is asked in between and however late it
is read, the current streak is the run of days that ends today or yesterday, and the longest streak is the
longest run there has been. -/

namespace CodeDeck.Streak

/-- What is done with the streak: a review is counted, a repository is counted, or it is only read. -/
inductive Deed where
  | swipe (mastered : Bool)
  | repo
  | look
  deriving DecidableEq

namespace Deed

def isSwipe : Deed → Bool
  | swipe _ => true
  | _ => false

def isMastery : Deed → Bool
  | swipe mastered => mastered
  | _ => false

def isRepo : Deed → Bool
  | repo => true
  | _ => false

end Deed

abbrev Log := List (Deed × Date)

namespace Log

def reviewDays (log : Log) : Set Date := {d | ∃ mastered, (.swipe mastered, d) ∈ log}

def days (log : Log) : List Date := log.map (·.2)

def count (log : Log) (is : Deed → Bool) : Nat := log.countP fun entry => is entry.1

def reviews (log : Log) : Log := log.filter fun entry => entry.1.isSwipe

end Log

section Deeds

variable {σ : Type} [KeyValueStore σ]

def perform (store : σ) (deed : Deed) (today : Date) : Except Fault Streak × σ :=
  match deed with
  | .swipe mastered => recordSwipe store mastered today
  | .repo => recordRepo store today
  | .look => (stored store today, store)

def performAll (store : σ) : Log → Except Fault σ
  | [] => .ok store
  | (deed, today) :: rest =>
    match perform store deed today with
    | (.ok _, store) => performAll store rest
    | (.error fault, _) => .error fault

end Deeds

namespace Tally

/-- What a tally tells of the days with a review, up to the day with the number `now`. A run that did not
reach the day before that one may already read as broken. -/
inductive Tells (t : Tally) (active : Set Date) (now : Nat) : Prop
  | never (nothing : active = ∅) (last : t.lastActive = "") (current : t.current = 0)
      (longest : t.longest = 0)
  | since (l : Date) (n m : Nat) (member : l ∈ active) (latest : ∀ d ∈ active, d.number ≤ l.number)
      (past : l.number ≤ now) (last : t.lastActive = l.text)
      (reaches : Reaches active l.number n) (peaks : Peaks active m) (longest : t.longest = m)
      (current : t.current = n ∨ t.current = 0 ∧ l.number + 1 < now)

theorem endsOn_iff {t : Tally} {l : Date} (last : t.lastActive = l.text) (d : Date) :
    t.endsOn d ↔ l = d := by
  rw [endsOn, last, Date.text_eq_text_iff]

theorem not_endsOn {t : Tally} (last : t.lastActive = "") (d : Date) : ¬ t.endsOn d := by
  rw [endsOn, last]
  exact (Date.text_ne_empty d).symm

section Reading

variable {t : Tally} {active : Set Date} {now : Nat} {today : Date}

theorem onDay_of_recent {l : Date} (last : t.lastActive = l.text)
    (recent : today.number ≤ l.number + 1) (valid : today.Valid) (later : 1 < today.number)
    (validL : l.Valid) (past : l.number ≤ today.number) : t.onDay today = t := by
  obtain ⟨y, previous, validY, step⟩ := Date.previous?_number valid later
  have ends : t.endsOn today ∨ t.endsOn y := by
    rw [endsOn_iff last, endsOn_iff last]
    rcases Nat.lt_or_ge l.number today.number with before | reached
    · exact .inr (Date.eq_of_number_eq validL validY (by omega))
    · exact .inl (Date.eq_of_number_eq validL valid (by omega))
  simp only [onDay, previous, if_pos ends]

theorem current_onDay_of_late {l : Date} (last : t.lastActive = l.text)
    (late : l.number + 1 < today.number) (valid : today.Valid) (later : 1 < today.number) :
    (t.onDay today).current = 0 := by
  obtain ⟨y, previous, validY, step⟩ := Date.previous?_number valid later
  have ends : ¬ (t.endsOn today ∨ t.endsOn y) := by
    rw [endsOn_iff last, endsOn_iff last]
    rintro (rfl | rfl) <;> omega
  simp only [onDay, previous, if_neg ends]

theorem Tells.onDay (tells : Tells t active now) (actives : ∀ d ∈ active, d.Valid)
    (valid : today.Valid) (later : 1 < today.number) (order : now ≤ today.number) :
    Tells (t.onDay today) active today.number := by
  have same := t.onDay_fields today
  cases tells with
  | never nothing last current longest =>
    have broken : (t.onDay today).current = 0 := by
      unfold Tally.onDay
      split
      · split <;> simp [current]
      · exact current
    exact .never nothing (same.2.1.trans last) broken (same.1.trans longest)
  | since l n m member latest past last reaches peaks longest current =>
    have before := Nat.le_trans past order
    by_cases recent : today.number ≤ l.number + 1
    · rw [onDay_of_recent last recent valid later (actives l member) before]
      exact .since l n m member latest before last reaches peaks longest
        (current.imp_right fun broken => ⟨broken.1, by omega⟩)
    · have broken := current_onDay_of_late last (by omega) valid later
      exact .since l n m member latest before (same.2.1.trans last) reaches peaks
        (same.1.trans longest) (.inr ⟨broken, by omega⟩)

theorem Tells.later (tells : Tells t active now) {then_ : Nat} (order : now ≤ then_) :
    Tells t active then_ := by
  cases tells with
  | never nothing last current longest => exact .never nothing last current longest
  | since l n m member latest past last reaches peaks longest current =>
    exact .since l n m member latest (Nat.le_trans past order) last reaches peaks longest
      (current.imp_right fun broken => ⟨broken.1, Nat.lt_of_lt_of_le broken.2 order⟩)

theorem Tells.withRepo (tells : Tells t active now) : Tells t.withRepo active now := by
  cases tells with
  | never nothing last current longest => exact .never nothing last current longest
  | since l n m member latest past last reaches peaks longest current =>
    exact .since l n m member latest past last reaches peaks longest current

theorem Tells.isCurrent (tells : Tells t active now) (actives : ∀ d ∈ active, d.Valid)
    (valid : today.Valid) (later : 1 < today.number) (order : now ≤ today.number) :
    ∃ n : Nat, (t.onDay today).current = n ∧ IsCurrent active today n := by
  obtain ⟨y, previous, validY, step⟩ := Date.previous?_number valid later
  cases tells with
  | never nothing last current longest =>
    subst nothing
    refine ⟨0, ?_, fun member => absurd member id, fun _ _ member => absurd member id,
      fun _ _ => rfl⟩
    simp only [Tally.onDay, previous]
    split
    · exact current
    · rfl
  | since l n m member latest past last reaches peaks longest current =>
    have validL := actives l member
    have pastToday := Nat.le_trans past order
    have run := reaches.isRun actives validL
    by_cases recent : today.number ≤ l.number + 1
    · rw [onDay_of_recent last recent valid later validL pastToday]
      refine ⟨n, by omega, ?_⟩
      rcases Nat.lt_or_ge l.number today.number with before | reached
      · obtain rfl : l = y := Date.eq_of_number_eq validL validY (by omega)
        refine ⟨fun inside => ?_, fun _ p _ found => ?_, fun _ other => absurd previous (other l member)⟩
        · exact absurd (latest today inside) (by omega)
        · rw [previous, Option.some.injEq] at found
          exact found ▸ run
      · obtain rfl : l = today := Date.eq_of_number_eq validL valid (by omega)
        exact ⟨fun _ => run, fun outside => absurd member outside, fun outside => absurd member outside⟩
    · refine ⟨0, by simpa using current_onDay_of_late last (by omega) valid later,
        fun inside => ?_, fun _ p inside found => ?_, fun _ _ => rfl⟩
      · exact absurd (latest today inside) (by omega)
      · rw [previous, Option.some.injEq] at found
        exact absurd (latest p inside) (by rw [← found]; omega)

end Reading

section Swiping

variable {t : Tally} {active : Set Date} {today : Date}

theorem lastActive_extended (t : Tally) (today : Date) :
    (t.extended today).lastActive = today.text := by
  unfold extended
  split
  · next same => exact same
  · rfl

theorem current_extended_of_next {y : Date} (previous : today.previous? = some y)
    (new : ¬ t.endsOn today) (ends : t.endsOn y) : (t.extended today).current = t.current + 1 := by
  simp only [extended, if_neg new, previous, if_pos ends]

theorem current_extended_of_gap {y : Date} (previous : today.previous? = some y)
    (new : ¬ t.endsOn today) (gap : ¬ t.endsOn y) : (t.extended today).current = 1 := by
  simp only [extended, if_neg new, previous, if_neg gap]

theorem Tells.newDay {m c : Nat} (later : ∀ e ∈ active, e.number < today.number)
    (reaches : Reaches (insert today active) today.number c) (peaks : Peaks active m)
    (last : t.lastActive = today.text) (longest : t.longest = max (m : Int) c)
    (current : t.current = c) : Tells t (insert today active) today.number := by
  refine .since today c (max m c) (Set.mem_insert ..) (fun d member => ?_) (Nat.le_refl _) last
    reaches (peaks.insert later reaches) (by omega) (.inl current)
  rcases Set.mem_insert_iff.1 member with rfl | old
  · exact Nat.le_refl _
  · exact Nat.le_of_lt (later d old)

theorem Tells.swiped (tells : Tells t active today.number) (actives : ∀ d ∈ active, d.Valid)
    (valid : today.Valid) (later : 1 < today.number) (mastered : Bool) :
    Tells (t.swiped mastered today) (insert today active) today.number := by
  obtain ⟨y, previous, validY, step⟩ := Date.previous?_number valid later
  have fields := (t.counted mastered).extended_fields today
  have lastToday := (t.counted mastered).lastActive_extended today
  cases tells with
  | never nothing last current longest =>
    subst nothing
    have single := current_extended_of_gap (t := t.counted mastered) previous
      (not_endsOn last today) (not_endsOn last y)
    have first : Reaches (insert today ∅) today.number (0 + 1) :=
      Reaches.insert step (reaches_beyond fun e member => absurd member id)
    refine Tells.newDay (fun e member => absurd member id) first peaks_empty lastToday ?_ single
    have zero : (t.counted mastered).longest = 0 := longest
    simp only [Tally.swiped, fields.1, single, zero]
    rfl
  | since l n m member latest past last reaches peaks longest current =>
    have validL := actives l member
    have before : (t.counted mastered).longest = m := longest
    have ends (d : Date) : (t.counted mastered).endsOn d ↔ l = d := endsOn_iff last d
    -- The latest day is today, the day before, or further back: the run is left alone, goes on, or starts anew.
    by_cases sameDay : l = today
    · subst sameDay
      have same : (t.counted mastered).extended l = t.counted mastered := if_pos last
      have going : t.current = n := by omega
      have bound : n ≤ m := (peaks n).1 ⟨l.number, (reaches n).2 (Nat.le_refl n)⟩
      rw [Set.insert_eq_of_mem member]
      refine .since l n m member latest past lastToday reaches peaks ?_ (.inl ?_)
      · simp only [Tally.swiped, same, before]
        simp only [counted, going]
        omega
      · simp only [Tally.swiped, same]
        exact going
    have new : ¬ (t.counted mastered).endsOn today := fun last => sameDay ((ends today).1 last)
    have earlier : l.number < today.number :=
      Nat.lt_of_le_of_ne past fun same => sameDay (Date.eq_of_number_eq validL valid same)
    have allEarlier : ∀ e ∈ active, e.number < today.number := fun e inside =>
      Nat.lt_of_le_of_lt (latest e inside) earlier
    by_cases next : l = y
    · subst next
      have going : t.current = n := by omega
      have longer : ((t.counted mastered).extended today).current = (n + 1 : Nat) := by
        rw [current_extended_of_next previous new ((ends l).2 rfl)]
        simp only [counted, going]
        rfl
      refine Tells.newDay allEarlier (reaches.insert step) peaks lastToday ?_ longer
      simp only [Tally.swiped, fields.1, longer, before]
    · have gap : ¬ (t.counted mastered).endsOn y := fun last => next ((ends y).1 last)
      have single := current_extended_of_gap previous new gap
      have beyond : ∀ e ∈ active, e.number < y.number := fun e inside => by
        have bound := latest e inside
        have other : l.number ≠ y.number := fun same =>
          next (Date.eq_of_number_eq validL validY same)
        omega
      refine Tells.newDay allEarlier (Reaches.insert step (reaches_beyond beyond)) peaks lastToday
        ?_ single
      simp only [Tally.swiped, fields.1, single, before]
      rfl

end Swiping

end Tally

namespace Log

variable {log : Log}

theorem reviewDays_append_swipe (log : Log) (mastered : Bool) (today : Date) :
    reviewDays (log ++ [(.swipe mastered, today)]) = insert today log.reviewDays := by
  ext d
  simp only [reviewDays, Set.mem_ofPred_eq, Set.mem_insert_iff, List.mem_append,
    List.mem_singleton, Prod.mk.injEq, Deed.swipe.injEq]
  constructor
  · rintro ⟨m, old | ⟨_, same⟩⟩
    · exact .inr ⟨m, old⟩
    · exact .inl same
  · rintro (same | ⟨m, old⟩)
    · exact ⟨mastered, .inr ⟨rfl, same⟩⟩
    · exact ⟨m, .inl old⟩

theorem reviewDays_append_other {deed : Deed} (other : deed.isSwipe = false) (log : Log)
    (today : Date) : reviewDays (log ++ [(deed, today)]) = log.reviewDays := by
  ext d
  simp only [reviewDays, Set.mem_ofPred_eq, List.mem_append, List.mem_singleton, Prod.mk.injEq]
  refine exists_congr fun mastered => or_iff_left ?_
  rintro ⟨rfl, _⟩
  cases other

theorem mem_days_of_reviewDays {d : Date} (active : d ∈ log.reviewDays) : d ∈ log.days := by
  obtain ⟨_, member⟩ := active
  exact List.mem_map_of_mem member

theorem reviewDays_reviews (log : Log) : log.reviews.reviewDays = log.reviewDays := by
  ext d
  simp [reviewDays, reviews, Deed.isSwipe]

theorem count_append (log : Log) (entry : Deed × Date) (is : Deed → Bool) :
    count (log ++ [entry]) is = log.count is + if is entry.1 then 1 else 0 := by
  simp [count, List.countP_append, List.countP_singleton]

end Log

namespace Tally

/-- The tally of a log whose last deed is done on the day with the number `now`. -/
structure Recounts (t : Tally) (log : Log) (now : Nat) : Prop where
  tells : t.Tells log.reviewDays now
  swipes : t.swipes = log.count Deed.isSwipe
  masteries : t.masteries = log.count Deed.isMastery
  repos : t.repos = log.count Deed.isRepo

theorem recounts_nil : Recounts {} [] 0 where
  tells := .never (by simp [Log.reviewDays]) rfl rfl rfl
  swipes := rfl
  masteries := rfl
  repos := rfl

def after (t : Tally) (deed : Deed) (today : Date) : Tally :=
  match deed with
  | .swipe mastered => (t.onDay today).swiped mastered today
  | .repo => (t.onDay today).withRepo
  | .look => t

def reported (t : Tally) (deed : Deed) (today : Date) : Tally :=
  match deed with
  | .look => t.onDay today
  | _ => t.after deed today

theorem after_counts (t : Tally) (deed : Deed) (today : Date) :
    (t.after deed today).swipes = t.swipes + (if deed.isSwipe then 1 else 0) ∧
      (t.after deed today).masteries = t.masteries + (if deed.isMastery then 1 else 0) ∧
      (t.after deed today).repos = t.repos + (if deed.isRepo then 1 else 0) := by
  obtain ⟨_, _, _, sameSwipes, sameMasteries, sameRepos⟩ := t.onDay_fields today
  cases deed with
  | swipe mastered =>
    obtain ⟨_, moreSwipes, moreMasteries, moreRepos⟩ :=
      ((t.onDay today).counted mastered).extended_fields today
    refine ⟨?_, ?_, ?_⟩
    · rw [after, swiped, moreSwipes, counted, sameSwipes]
      rfl
    · rw [after, swiped, moreMasteries, counted, sameMasteries]
      cases mastered <;> simp [Deed.isMastery]
    · rw [after, swiped, moreRepos, counted, sameRepos]
      exact (Int.add_zero _).symm
  | repo =>
    refine ⟨?_, ?_, ?_⟩
    · rw [after, withRepo, sameSwipes]
      exact (Int.add_zero _).symm
    · rw [after, withRepo, sameMasteries]
      exact (Int.add_zero _).symm
    · rw [after, withRepo, sameRepos]
      rfl
  | look => exact ⟨(Int.add_zero _).symm, (Int.add_zero _).symm, (Int.add_zero _).symm⟩

theorem Recounts.after {t : Tally} {log : Log} {now : Nat} (recounts : t.Recounts log now)
    (actives : ∀ d ∈ log.reviewDays, d.Valid) {today : Date} (valid : today.Valid)
    (later : 1 < today.number) (order : now ≤ today.number) (deed : Deed) :
    (t.after deed today).Recounts (log ++ [(deed, today)]) today.number := by
  obtain ⟨tells, swipes, masteries, repos⟩ := recounts
  obtain ⟨moreSwipes, moreMasteries, moreRepos⟩ := t.after_counts deed today
  have read := tells.onDay actives valid later order
  refine ⟨?_, ?_, ?_, ?_⟩
  · cases deed with
    | swipe mastered =>
      rw [Log.reviewDays_append_swipe]
      exact read.swiped actives valid later mastered
    | repo =>
      rw [Log.reviewDays_append_other rfl]
      exact read.withRepo
    | look =>
      rw [Log.reviewDays_append_other rfl]
      exact tells.later order
  · rw [moreSwipes, swipes, Log.count_append]
    split <;> rfl
  · rw [moreMasteries, masteries, Log.count_append]
    split <;> rfl
  · rw [moreRepos, repos, Log.count_append]
    split <;> rfl

def afterAll (t : Tally) (log : Log) : Tally := log.foldl (fun t entry => t.after entry.1 entry.2) t

theorem afterAll_append (t : Tally) (front back : Log) :
    t.afterAll (front ++ back) = (t.afterAll front).afterAll back := List.foldl_append

theorem recounts_afterAll {log : Log} {last : Nat} (dates : ∀ d ∈ log.days, d.Valid ∧ 2 ≤ d.year)
    (order : log.days.Pairwise (· ≤ ·)) (bound : ∀ d ∈ log.days, d.number ≤ last) :
    (afterAll {} log).Recounts log last := by
  induction log using List.reverseRecOn generalizing last with
  | nil => exact { recounts_nil with tells := recounts_nil.tells.later (Nat.zero_le last) }
  | append_singleton past entry ih =>
    obtain ⟨deed, today⟩ := entry
    have split : Log.days (past ++ [(deed, today)]) = Log.days past ++ [today] := List.map_append
    rw [split] at dates order bound
    obtain ⟨inOrder, _, before⟩ := List.pairwise_append.1 order
    have inPast (d : Date) (member : d ∈ Log.days past) : d.Valid ∧ 2 ≤ d.year :=
      dates d (List.mem_append_left _ member)
    have onToday : today.Valid ∧ 2 ≤ today.year := dates today (by simp)
    have recounts := ih inPast inOrder fun d member =>
      Date.number_le_of_le (inPast d member).1 (before d member today (by simp))
    have more := recounts.after (fun d active => (inPast d (Log.mem_days_of_reviewDays active)).1)
      onToday.1 (one_lt_number onToday.1 onToday.2) (Nat.le_refl _) deed
    rw [afterAll_append]
    exact { more with tells := more.tells.later (bound today (by simp)) }

theorem Within.after {t : Tally} {n : Nat} (within : t.Within n) (deed : Deed) (today : Date) :
    (t.after deed today).Within (n + 1) := by
  cases deed with
  | swipe mastered => exact (within.onDay today).swiped mastered today
  | repo => exact (within.onDay today).withRepo
  | look => exact within.mono (Nat.le_succ n)

section Storing

open KeyValueStore

variable {σ : Type} [KeyValueStore σ] [ReliableStore σ]

theorem HeldBy.perform {t : Tally} {store : σ} (held : t.HeldBy store) {today : Date} (valid : today.Valid)
    (later : daysKept < today.number) {n : Nat} (within : t.Within n) (takes : Takes σ (upTo (n + 1)))
    (deed : Deed) :
    ∃ left, Streak.perform store deed today = (.ok (t.reported deed today).streak, left) ∧
      (t.after deed today).HeldBy left := by
  have second : 1 < today.number := Nat.lt_of_le_of_lt (by decide) later
  cases deed with
  | swipe mastered => exact ⟨_, held.recordSwipe valid later within takes mastered⟩
  | repo => exact ⟨_, held.recordRepo valid second ((within.onDay today).withRepo.taken takes store)⟩
  | look => exact ⟨store, Prod.ext (held.stored valid second) rfl, held⟩

theorem HeldBy.performAll {t : Tally} {store : σ} (held : t.HeldBy store) {log : Log}
    (dates : ∀ d ∈ log.days, d.Valid ∧ 2 ≤ d.year) {n : Nat} (within : t.Within n)
    (takes : Takes σ (upTo (n + log.length))) :
    ∃ left, Streak.performAll store log = .ok left ∧ (t.afterAll log).HeldBy left := by
  induction log generalizing t store n with
  | nil => exact ⟨store, rfl, held⟩
  | cons entry rest ih =>
    obtain ⟨deed, today⟩ := entry
    obtain ⟨valid, year⟩ := dates today List.mem_cons_self
    rw [List.length_cons] at takes
    have first : Takes σ (upTo (n + 1)) := takes.upTo_mono (by omega)
    have later : Takes σ (upTo (n + 1 + rest.length)) := takes.upTo_mono (by omega)
    obtain ⟨left, done, held'⟩ := held.perform valid (daysKept_lt_number valid year) within first deed
    obtain ⟨left', all, heldAll⟩ :=
      ih held' (fun d member => dates d (List.mem_cons_of_mem _ member)) (within.after deed today) later
    refine ⟨left', ?_, heldAll⟩
    rw [Streak.performAll, done]
    exact all

end Storing

end Tally

/-- What a streak that is read on a day shows of the days with a review. -/
structure Shows (s : Streak) (days : Set Date) (today : Date) : Prop where
  current : ∃ n : Nat, s.current = .int n ∧ IsCurrent days today n
  longest : ∃ n : Nat, s.longest = .int n ∧ IsLongest days n
  latest : ∃ text, s.lastActiveDate = .str text ∧ IsLatest days text

theorem Shows.unique {s u : Streak} {days : Set Date} {today : Date} (left : s.Shows days today)
    (right : u.Shows days today) : s.current = u.current ∧ s.longest = u.longest ∧
      s.lastActiveDate = u.lastActiveDate := by
  obtain ⟨⟨n, current, isCurrent⟩, ⟨m, longest, isLongest⟩, ⟨text, latest, isLatest⟩⟩ := left
  obtain ⟨⟨n', current', isCurrent'⟩, ⟨m', longest', isLongest'⟩, ⟨text', latest', isLatest'⟩⟩ := right
  rw [current, current', longest, longest', latest, latest', isCurrent.unique isCurrent',
    isLongest.unique isLongest', isLatest.unique isLatest']
  exact ⟨rfl, rfl, rfl⟩

theorem Tally.Tells.shows {t : Tally} {active : Set Date} {now : Nat} {today : Date}
    (tells : Tells t active now) (actives : ∀ d ∈ active, d.Valid) (valid : today.Valid)
    (later : 1 < today.number) (order : now ≤ today.number) :
    (t.onDay today).streak.Shows active today := by
  obtain ⟨n, current, isCurrent⟩ := tells.isCurrent actives valid later order
  have fields := t.onDay_fields today
  refine ⟨⟨n, congrArg Json.int current, isCurrent⟩, ?_, ⟨_, rfl, ?_⟩⟩
  · cases tells with
    | never nothing last current longest =>
      refine ⟨0, congrArg Json.int (fields.1.trans longest), ?_⟩
      exact nothing ▸ peaks_empty.isLongest fun p member => absurd member id
    | since l n m member latest past last reaches peaks longest current =>
      exact ⟨m, congrArg Json.int (fields.1.trans longest), peaks.isLongest actives⟩
  · rw [fields.2.1]
    cases tells with
    | never nothing last current longest => exact .inl ⟨nothing, last⟩
    | since l n m member latest past last reaches peaks longest current =>
      refine .inr ⟨l, member, fun e inside => ?_, last⟩
      exact (Date.le_iff_number_le (actives e inside) (actives l member)).2 (latest e inside)

open KeyValueStore

variable {σ : Type} [KeyValueStore σ] [ReliableStore σ]

theorem performAll_holds {store : σ} (empty : KeyValueStore.get? store Key.streak = .ok none) {log : Log}
    (dates : ∀ d ∈ log.days, d.Valid ∧ 2 ≤ d.year) (takes : Takes σ (upTo log.length)) :
    ∃ left, performAll store log = .ok left ∧ (Tally.afterAll {} log).HeldBy left := by
  have nothing : Tally.HeldBy {} store := .inr ⟨empty, rfl⟩
  refine nothing.performAll dates (Tally.within_empty (n := 0)) ?_
  rwa [Nat.zero_add]

theorem performAll_shows {store : σ} (empty : KeyValueStore.get? store Key.streak = .ok none)
    {log : Log} {today : Date} (dates : ∀ d ∈ log.days ++ [today], d.Valid ∧ 2 ≤ d.year)
    (order : (log.days ++ [today]).Pairwise (· ≤ ·)) (takes : Takes σ (upTo log.length)) :
    ∃ left s, performAll store log = .ok left ∧ stored left today = .ok s ∧
      s.Shows log.reviewDays today ∧
      s.totalSwipes = .int (log.count Deed.isSwipe) ∧
      s.totalMastered = .int (log.count Deed.isMastery) ∧
      s.totalRepos = .int (log.count Deed.isRepo) := by
  obtain ⟨inOrder, _, before⟩ := List.pairwise_append.1 order
  have inLog (d : Date) (member : d ∈ log.days) : d.Valid ∧ 2 ≤ d.year :=
    dates d (List.mem_append_left _ member)
  obtain ⟨valid, year⟩ : today.Valid ∧ 2 ≤ today.year := dates today (by simp)
  obtain ⟨left, done, held⟩ := performAll_holds empty inLog takes
  have recounts := Tally.recounts_afterAll inLog inOrder fun d member =>
    Date.number_le_of_le (inLog d member).1 (before d member today (by simp))
  have second := one_lt_number valid year
  have actives (d : Date) (active : d ∈ log.reviewDays) : d.Valid :=
    (inLog d (Log.mem_days_of_reviewDays active)).1
  have fields := (Tally.afterAll {} log).onDay_fields today
  refine ⟨left, ((Tally.afterAll {} log).onDay today).streak, done, held.stored valid second,
    recounts.tells.shows actives valid second (Nat.le_refl _), ?_, ?_, ?_⟩
  · exact congrArg Json.int (fields.2.2.2.1.trans recounts.swipes)
  · exact congrArg Json.int (fields.2.2.2.2.1.trans recounts.masteries)
  · exact congrArg Json.int (fields.2.2.2.2.2.trans recounts.repos)

/-- Over an empty store that takes counts up to the length of the log, the streak is read off the log: the runs of the
days with a review, the latest of them, and the number of deeds of each sort. Deeds that are no reviews leave the days as
they are. -/
theorem performAll_tells (store : σ) (empty : KeyValueStore.get? store Key.streak = .ok none)
    (log : Log) (today : Date) (dates : ∀ d ∈ log.days ++ [today], d.Valid ∧ 2 ≤ d.year)
    (order : (log.days ++ [today]).Pairwise (· ≤ ·)) (takes : Takes σ (upTo log.length)) :
    ∃ left s, performAll store log = .ok left ∧ stored left today = .ok s ∧
      (∃ n : Nat, s.current = .int n ∧ IsCurrent log.reviewDays today n) ∧
      (∃ n : Nat, s.longest = .int n ∧ IsLongest log.reviewDays n) ∧
      (∃ text, s.lastActiveDate = .str text ∧ IsLatest log.reviewDays text) ∧
      s.totalSwipes = .int (log.count Deed.isSwipe) ∧
      s.totalMastered = .int (log.count Deed.isMastery) ∧
      s.totalRepos = .int (log.count Deed.isRepo) ∧
      ∃ left' s', performAll store log.reviews = .ok left' ∧ stored left' today = .ok s' ∧
        s'.current = s.current ∧ s'.longest = s.longest ∧ s'.lastActiveDate = s.lastActiveDate := by
  have fewer : (log.reviews.days ++ [today]).Sublist (log.days ++ [today]) :=
    (List.filter_sublist.map _).append_right _
  obtain ⟨left, s, done, read, shows, swipes, masteries, repos⟩ := performAll_shows empty dates order takes
  have datesReviews : ∀ d ∈ log.reviews.days ++ [today], d.Valid ∧ 2 ≤ d.year := fun d member =>
    dates d (fewer.subset member)
  obtain ⟨left', s', done', read', shows', _⟩ :=
    performAll_shows empty datesReviews (order.sublist fewer) (takes.upTo_mono (List.length_filter_le ..))
  rw [Log.reviewDays_reviews] at shows'
  exact ⟨left, s, done, read, shows.current, shows.longest, shows.latest, swipes, masteries, repos,
    left', s', done', read', shows'.unique shows⟩

def newYear : Log :=
  [(.swipe true, ⟨2023, 12, 30⟩), (.look, ⟨2023, 12, 30⟩), (.swipe false, ⟨2023, 12, 31⟩),
    (.swipe true, ⟨2023, 12, 31⟩), (.swipe false, ⟨2024, 1, 1⟩), (.repo, ⟨2024, 1, 2⟩)]

theorem new_year_goes_on :
    KeyValueStore.get? (⟨[]⟩ : Memory) Key.streak = .ok none ∧
    (∀ d ∈ newYear.days ++ [⟨2024, 1, 2⟩], d.Valid ∧ 2 ≤ d.year) ∧
    (newYear.days ++ [(⟨2024, 1, 2⟩ : Date)]).Pairwise (· ≤ ·) ∧
    KeyValueStore.Takes Memory (KeyValueStore.upTo newYear.length) ∧
    IsCurrent newYear.reviewDays ⟨2024, 1, 2⟩ 3 ∧ IsLongest newYear.reviewDays 3 := by
  have dates : ∀ d ∈ newYear.days ++ [⟨2024, 1, 2⟩], d.Valid ∧ 2 ≤ d.year := by decide
  have order : (newYear.days ++ [(⟨2024, 1, 2⟩ : Date)]).Pairwise (· ≤ ·) := by
    simp only [Date.le_def]
    decide
  have takes : KeyValueStore.Takes Memory (KeyValueStore.upTo newYear.length) :=
    .upTo_of_fits MemoryOf.taken_of_isWritable (by decide +kernel)
  obtain ⟨left, s, done, read, ⟨n, current, isCurrent⟩, ⟨m, longest, isLongest⟩, _⟩ :=
    performAll_tells (⟨[]⟩ : Memory) rfl newYear ⟨2024, 1, 2⟩ dates order takes
  have figures : (((performAll (⟨[]⟩ : Memory) newYear).bind fun left => stored left ⟨2024, 1, 2⟩).map
      fun s => (s.current.whole?, s.longest.whole?)).toOption = some (some 3, some 3) := by
    decide +kernel
  rw [done] at figures
  simp only [Except.bind, read, Except.map, Except.toOption, current, longest, Json.whole?,
    Option.some.injEq, Prod.mk.injEq] at figures
  obtain rfl : n = 3 := by omega
  obtain rfl : m = 3 := by omega
  exact ⟨rfl, dates, order, takes, isCurrent, isLongest⟩

end CodeDeck.Streak
