import CodeDeck.Proofs.Calendar
import CodeDeck.Proofs.Json
import CodeDeck.Proofs.Json.Limits
import CodeDeck.Proofs.Store
import CodeDeck.Streak

/-! The streak in the form in which it is written: whole numbers, and texts for days. On such a streak
every operation succeeds from year 2 on, and what it does is a function on the tally. -/

namespace CodeDeck.Streak

theorem get?_update_of_ne {σ : Type} [KeyValueStore σ] [ReliableStore σ] (store : σ) (today : Date)
    (change : Streak → Except Fault Streak) {key : String} (different : key ≠ Key.streak) :
    KeyValueStore.get? (update store today change).2 key = KeyValueStore.get? store key := by
  unfold update
  split
  · rfl
  · next s _ =>
    have others := ReliableStore.get?_set_of_ne store different s.toJson
    split <;> next after => rwa [after] at others

theorem daysKept_lt_number {d : Date} (valid : d.Valid) (year : 2 ≤ d.year) : daysKept < d.number :=
  Nat.lt_trans (by decide) (Date.year_lt_number valid year)

theorem one_lt_number {d : Date} (valid : d.Valid) (year : 2 ≤ d.year) : 1 < d.number :=
  Nat.lt_trans (by decide) (daysKept_lt_number valid year)

structure Tally where
  current : Int := 0
  longest : Int := 0
  lastActive : String := ""
  days : List String := []
  swipes : Int := 0
  masteries : Int := 0
  repos : Int := 0

namespace Tally

def streak (t : Tally) : Streak where
  current := .int t.current
  longest := .int t.longest
  lastActiveDate := .str t.lastActive
  activeDays := .arr (t.days.map .str)
  totalSwipes := .int t.swipes
  totalMastered := .int t.masteries
  totalRepos := .int t.repos

def endsOn (t : Tally) (d : Date) : Prop := t.lastActive = d.text

instance (t : Tally) (d : Date) : Decidable (t.endsOn d) := by unfold endsOn; infer_instance

def onDay (t : Tally) (today : Date) : Tally :=
  match today.previous? with
  | some yesterday =>
    if t.endsOn today ∨ t.endsOn yesterday then t else { t with current := 0 }
  | none => t

def logged (t : Tally) (today : Date) : List String :=
  if today.text ∈ t.days then t.days
  else
    let kept := ((today.before? daysKept).map Date.text).getD ""
    (t.days ++ [today.text]).filter fun day => kept ≤ day

def extended (t : Tally) (today : Date) : Tally :=
  if t.endsOn today then t
  else
    { t with
      current :=
        match today.previous? with
        | some yesterday => if t.endsOn yesterday then t.current + 1 else 1
        | none => 1
      lastActive := today.text
      days := t.logged today }

def counted (t : Tally) (mastered : Bool) : Tally :=
  { t with
    swipes := t.swipes + 1
    masteries := if mastered then t.masteries + 1 else t.masteries }

def swiped (t : Tally) (mastered : Bool) (today : Date) : Tally :=
  let e := (t.counted mastered).extended today
  { e with longest := max e.longest e.current }

def withRepo (t : Tally) : Tally := { t with repos := t.repos + 1 }

@[simp]
theorem onDay_fields (t : Tally) (today : Date) :
    (t.onDay today).longest = t.longest ∧ (t.onDay today).lastActive = t.lastActive ∧
      (t.onDay today).days = t.days ∧ (t.onDay today).swipes = t.swipes ∧
      (t.onDay today).masteries = t.masteries ∧ (t.onDay today).repos = t.repos := by
  unfold onDay
  split
  · split <;> simp
  · simp

theorem current_onDay (t : Tally) (today : Date) : (t.onDay today).current = t.current ∨ (t.onDay today).current = 0 := by
  unfold onDay
  split
  · split
    · exact .inl rfl
    · exact .inr rfl
  · exact .inl rfl

theorem extended_fields (t : Tally) (today : Date) :
    (t.extended today).longest = t.longest ∧ (t.extended today).swipes = t.swipes ∧
      (t.extended today).masteries = t.masteries ∧ (t.extended today).repos = t.repos := by
  unfold extended
  split <;> simp

theorem current_extended (t : Tally) (today : Date) :
    (t.extended today).current = t.current ∨ (t.extended today).current = t.current + 1 ∨
      (t.extended today).current = 1 := by
  unfold extended
  split
  · exact .inl rfl
  · simp only
    split
    · split
      · exact .inr (.inl rfl)
      · exact .inr (.inr rfl)
    · exact .inr (.inr rfl)

theorem allWhole_streak {t : Tally} {p : Int → Bool} :
    t.streak.toJson.allWhole p = true ↔
      p t.current = true ∧ p t.longest = true ∧ p t.swipes = true ∧ p t.masteries = true ∧ p t.repos = true := by
  have texts : (Json.arr (t.days.map .str)).allWhole p = true := by
    rw [Json.allWhole_arr, List.all_map]
    exact List.all_eq_true.2 fun _ _ => rfl
  simp only [Streak.toJson, streak, Json.allWhole_obj, List.all_cons, List.all_nil, texts]
  simp [Json.allWhole]

theorem isWritable_streak {t : Tally} :
    t.streak.toJson.isWritable = true ↔
      (Json.int t.current : Json).isWritable = true ∧ (Json.int t.longest : Json).isWritable = true ∧
        (Json.int t.swipes : Json).isWritable = true ∧ (Json.int t.masteries : Json).isWritable = true ∧
        (Json.int t.repos : Json).isWritable = true := allWhole_streak

theorem isWritable_withRepo_iff {t : Tally} (written : t.streak.toJson.isWritable = true) (today : Date) :
    (t.onDay today).withRepo.streak.toJson.isWritable = true ↔ (Json.int (t.repos + 1) : Json).isWritable = true := by
  obtain ⟨current, longest, swipes, masteries, _⟩ := isWritable_streak.1 written
  obtain ⟨sameLongest, _, _, sameSwipes, sameMasteries, sameRepos⟩ := t.onDay_fields today
  have repos : (t.onDay today).withRepo.repos = t.repos + 1 := congrArg (· + 1) sameRepos
  have run : (Json.int (t.onDay today).current : Json).isWritable = true := by
    rcases t.current_onDay today with same | broken
    · exact same.symm ▸ current
    · exact broken.symm ▸ Json.isWritable_int_of_lt_ten (by decide)
  rw [isWritable_streak, repos]
  exact ⟨fun all => all.2.2.2.2,
    fun room => ⟨run, sameLongest.symm ▸ longest, sameSwipes.symm ▸ swipes, sameMasteries.symm ▸ masteries, room⟩⟩

structure Within (t : Tally) (n : Nat) : Prop where
  current : t.current.natAbs ≤ n
  longest : t.longest.natAbs ≤ n
  swipes : t.swipes.natAbs ≤ n
  masteries : t.masteries.natAbs ≤ n
  repos : t.repos.natAbs ≤ n

section Within

variable {t : Tally} {n : Nat}

theorem within_empty : Within {} n :=
  ⟨Nat.zero_le n, Nat.zero_le n, Nat.zero_le n, Nat.zero_le n, Nat.zero_le n⟩

theorem Within.mono {m : Nat} (within : t.Within n) (more : n ≤ m) : t.Within m where
  current := Nat.le_trans within.current more
  longest := Nat.le_trans within.longest more
  swipes := Nat.le_trans within.swipes more
  masteries := Nat.le_trans within.masteries more
  repos := Nat.le_trans within.repos more

theorem Within.onDay (within : t.Within n) (today : Date) : (t.onDay today).Within n := by
  obtain ⟨longest, _, _, swipes, masteries, repos⟩ := t.onDay_fields today
  refine ⟨?_, longest ▸ within.longest, swipes ▸ within.swipes, masteries ▸ within.masteries,
    repos ▸ within.repos⟩
  rcases t.current_onDay today with same | broken
  · exact same ▸ within.current
  · rw [broken]
    exact Nat.zero_le n

theorem Within.swiped (within : t.Within n) (mastered : Bool) (today : Date) :
    (t.swiped mastered today).Within (n + 1) := by
  obtain ⟨longest, swipes, masteries, repos⟩ :
      ((t.counted mastered).extended today).longest = t.longest ∧
      ((t.counted mastered).extended today).swipes = t.swipes + 1 ∧
      ((t.counted mastered).extended today).masteries = (if mastered then t.masteries + 1 else t.masteries) ∧
      ((t.counted mastered).extended today).repos = t.repos := (t.counted mastered).extended_fields today
  obtain ⟨was, wasLongest, wasSwipes, wasMasteries, wasRepos⟩ := within
  have current : ((t.counted mastered).extended today).current.natAbs ≤ n + 1 := by
    have before : (t.counted mastered).current = t.current := rfl
    rcases (t.counted mastered).current_extended today with same | more | anew <;> omega
  refine ⟨current, ?_, ?_, ?_, ?_⟩
  · simp only [Tally.swiped, longest]
    omega
  · simp only [Tally.swiped, swipes]
    omega
  · simp only [Tally.swiped, masteries]
    split <;> omega
  · simp only [Tally.swiped, repos]
    omega

theorem Within.withRepo (within : t.Within n) : t.withRepo.Within (n + 1) where
  current := Nat.le_succ_of_le within.current
  longest := Nat.le_succ_of_le within.longest
  swipes := Nat.le_succ_of_le within.swipes
  masteries := Nat.le_succ_of_le within.masteries
  repos := by
    have bound := within.repos
    simp only [Tally.withRepo]
    omega

theorem Within.allWhole (within : t.Within n) : t.streak.toJson.allWhole (KeyValueStore.upTo n) = true :=
  allWhole_streak.2 ⟨decide_eq_true within.current, decide_eq_true within.longest, decide_eq_true within.swipes,
    decide_eq_true within.masteries, decide_eq_true within.repos⟩

end Within

theorem streak_endsOn (t : Tally) (d : Date) : t.streak.endsOn d = decide (t.endsOn d) :=
  Json.same_str ..

theorem streak_onDay (t : Tally) {today : Date} (valid : today.Valid) (later : 1 < today.number) :
    t.streak.onDay today = .ok (t.onDay today).streak := by
  obtain ⟨yesterday, previous, _⟩ := Date.previous?_number valid later
  have ago : daysAgo today 1 = .ok yesterday := by
    simp [daysAgo, Date.before?, previous]
  simp only [Streak.onDay, ago, onDay, previous, streak_endsOn, bind, Except.bind]
  by_cases recent : t.endsOn today ∨ t.endsOn yesterday
  · simp [recent, pure, Except.pure]
  · simp [recent, pure, Except.pure, streak]

theorem daysFrom_texts (cutoff : String) (days : List String) :
    daysFrom cutoff (days.map .str) = .ok ((days.filter fun day => cutoff ≤ day).map .str) := by
  induction days with
  | nil => rfl
  | cons day rest ih =>
    by_cases kept : cutoff ≤ day <;> simp [daysFrom, ih, Except.map, kept]

theorem any_same_str (days : List String) (day : String) :
    (days.map Json.str).any (fun item => item.same (.str day)) = decide (day ∈ days) := by
  simp only [List.any_map, Function.comp_def, Json.same_str]
  rw [Bool.eq_iff_iff]
  simp

theorem streak_logDay (t : Tally) {today : Date} (valid : today.Valid)
    (later : daysKept < today.number) :
    t.streak.logDay today = .ok (.arr ((t.logged today).map .str)) := by
  obtain ⟨first, before, _⟩ := Date.before?_number daysKept valid later
  have ago : daysAgo today daysKept = .ok first := by simp [daysAgo, before]
  have mentioned : t.streak.activeDays.mentions today.text = .ok (decide (today.text ∈ t.days)) :=
    congrArg Except.ok (any_same_str t.days today.text)
  have appended : t.days.map Json.str ++ [.str today.text] =
      (t.days ++ [today.text]).map .str := by simp
  simp only [logDay, mentioned, logged, before, Option.map_some, Option.getD_some, bind,
    Except.bind]
  by_cases known : today.text ∈ t.days
  · rw [if_pos (decide_eq_true known), if_pos known]
    rfl
  · rw [if_neg (by simpa using known), if_neg known]
    simp only [ago, streak, Json.asItems, appended, daysFrom_texts, pure, Except.pure]

theorem streak_extend (t : Tally) {today : Date} (valid : today.Valid)
    (later : daysKept < today.number) :
    t.streak.extend today = .ok (t.extended today).streak := by
  have second : 1 < today.number := Nat.lt_of_le_of_lt (by decide) later
  obtain ⟨yesterday, previous, _⟩ := Date.previous?_number valid second
  have ago : daysAgo today 1 = .ok yesterday := by simp [daysAgo, Date.before?, previous]
  simp only [extend, streak_endsOn, extended, decide_eq_true_eq]
  by_cases same : t.endsOn today
  · rw [if_pos same, if_pos same]
  · rw [if_neg same, if_neg same]
    simp only [ago, streak_logDay t valid later, previous, bind, Except.bind]
    by_cases before : t.endsOn yesterday
    · simp [before, streak, pure, Except.pure]
    · simp [before, streak, pure, Except.pure]

theorem streak_swipe (t : Tally) (mastered : Bool) {today : Date} (valid : today.Valid)
    (later : daysKept < today.number) :
    t.streak.swipe mastered today = .ok (t.swiped mastered today).streak := by
  have counts : t.streak.swipe mastered today =
      ((t.counted mastered).streak.extend today).bind fun s =>
        (s.longest.larger s.current).map fun longest => { s with longest := longest } := by
    cases mastered <;> rfl
  rw [counts, streak_extend (t.counted mastered) valid later]
  simp only [Except.bind, streak, Json.larger_int, Except.map, swiped]

theorem streak_addRepo (t : Tally) : t.streak.addRepo = .ok t.withRepo.streak := rfl

variable {σ : Type} [KeyValueStore σ]

/-- Does the store hold the tally? A store without a streak holds the empty one. -/
def HeldBy (t : Tally) (store : σ) : Prop :=
  KeyValueStore.get? store Key.streak = .ok (some t.streak.toJson) ∨
    KeyValueStore.get? store Key.streak = .ok none ∧ t = {}

theorem HeldBy.of_same {t : Tally} {store other : σ} (held : t.HeldBy store)
    (same : KeyValueStore.get? other Key.streak = KeyValueStore.get? store Key.streak) :
    t.HeldBy other := by
  unfold HeldBy
  rw [same]
  exact held

theorem HeldBy.stored {t : Tally} {store : σ} (held : t.HeldBy store) {today : Date}
    (valid : today.Valid) (later : 1 < today.number) :
    Streak.stored store today = .ok (t.onDay today).streak := by
  rcases held with written | ⟨absent, rfl⟩
  · have read : Streak.stored store today = t.streak.onDay today := by
      simp only [Streak.stored, KeyValueStore.read, written]
      rfl
    rw [read, streak_onDay t valid later]
  · have read : Streak.stored store today = .ok (streak {}) := by
      simp only [Streak.stored, KeyValueStore.read, absent]
      rfl
    have same : onDay {} today = {} := by
      unfold onDay
      split
      · split <;> rfl
      · rfl
    rw [read, same]

variable [ReliableStore σ]

def written (t : Tally) (store : σ) : σ := (KeyValueStore.set store Key.streak t.streak.toJson).2

section Writing

variable {t u : Tally} {store : σ} {today : Date} {n : Nat}

omit [ReliableStore σ] in
theorem Within.taken (within : t.Within n) (takes : KeyValueStore.Takes σ (KeyValueStore.upTo n)) (store : σ) :
    (KeyValueStore.set store Key.streak t.streak.toJson).1 = .ok () :=
  takes store Key.streak _ within.allWhole

theorem HeldBy.update (held : t.HeldBy store) (valid : today.Valid) (later : 1 < today.number)
    {change : Streak → Except Fault Streak} (changed : change (t.onDay today).streak = .ok u.streak)
    (taken : (KeyValueStore.set store Key.streak u.streak.toJson).1 = .ok ()) :
    Streak.update store today change = (.ok u.streak, u.written store) ∧ u.HeldBy (u.written store) := by
  constructor
  · simp only [Streak.update, held.stored valid later, Except.bind, changed]
    rw [KeyValueStore.set_eq taken]
    rfl
  · exact .inl (ReliableStore.get?_set_self store taken)

omit [ReliableStore σ] in
theorem HeldBy.update_refused {store : Table} (held : t.HeldBy store) (valid : today.Valid) (later : 1 < today.number)
    {change : Streak → Except Fault Streak} (changed : change (t.onDay today).streak = .ok u.streak)
    (unwritable : u.streak.toJson.isWritable = false) :
    Streak.update store today change = (.error .unwritableNumber, store) := by
  simp only [Streak.update, held.stored valid later, Except.bind, changed]
  rcases store.set_cases Key.streak u.streak.toJson with ⟨writable, _⟩ | ⟨_, after⟩
  · exact absurd (writable.symm.trans unwritable) Bool.noConfusion
  · rw [after]

theorem HeldBy.recordSwipe (held : t.HeldBy store) (valid : today.Valid) (later : daysKept < today.number)
    (within : t.Within n) (takes : KeyValueStore.Takes σ (KeyValueStore.upTo (n + 1))) (mastered : Bool) :
    let u := (t.onDay today).swiped mastered today
    Streak.recordSwipe store mastered today = (.ok u.streak, u.written store) ∧ u.HeldBy (u.written store) :=
  held.update valid (Nat.lt_of_le_of_lt (by decide) later) (streak_swipe _ mastered valid later)
    (((within.onDay today).swiped mastered today).taken takes store)

theorem HeldBy.recordRepo (held : t.HeldBy store) (valid : today.Valid) (later : 1 < today.number)
    (taken : (KeyValueStore.set store Key.streak (t.onDay today).withRepo.streak.toJson).1 = .ok ()) :
    let u := (t.onDay today).withRepo
    Streak.recordRepo store today = (.ok u.streak, u.written store) ∧ u.HeldBy (u.written store) :=
  held.update valid later (streak_addRepo _) taken

end Writing

end Tally

end CodeDeck.Streak
