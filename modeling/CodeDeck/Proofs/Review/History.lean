import CodeDeck.Proofs.Review.Step
import CodeDeck.Store.Memory

/-! What a session holds, read off its history: which card each event acted on, and when. A history
runs backwards, the latest deed first, so that the deeds since the last restart are its first ones. -/

namespace CodeDeck

/-- An event, the card that it acted on, and the reading that it took from the clock. -/
structure Deed where
  event : Event
  card : Option Card
  time : Option Int

def Deed.reviews (key : Json.Key) (d : Deed) : Bool :=
  (d.event = .review .confirm || d.event = .review .reject) && d.card.any fun c => c.id.key = key

namespace History

def sinceRestart (past : List Deed) : List Deed := past.takeWhile fun d => d.event ≠ .restart

/-- The confirmations and rejections of a card since the last restart. -/
def reviewsOf (key : Json.Key) (past : List Deed) : List Deed :=
  (sinceRestart past).filter (Deed.reviews key)

def trailingConfirms (key : Json.Key) (past : List Deed) : Nat :=
  ((reviewsOf key past).takeWhile fun d => d.event = .review .confirm).length

def lastTime (key : Json.Key) (past : List Deed) : Option Int :=
  (reviewsOf key past).head?.bind (·.time)

/-- The card of the latest deed that took a count from two to three, looked for back to the last
restart or clearing. -/
def newlyMastered : List Deed → Option Card
  | [] => none
  | d :: before =>
    if d.event = .restart ∨ d.event = .clearMastered then none
    else
      match d.card with
      | none => newlyMastered before
      | some c =>
        if trailingConfirms c.id.key before = 2 ∧ trailingConfirms c.id.key (d :: before) = 3 then
          some c
        else newlyMastered before

variable {key : Json.Key} {d : Deed} {past : List Deed}

theorem reviewsOf_restart (restarts : d.event = .restart) : reviewsOf key (d :: past) = [] := by
  simp [reviewsOf, sinceRestart, restarts]

theorem reviewsOf_self (goesOn : d.event ≠ .restart) (acts : d.reviews key = true) :
    reviewsOf key (d :: past) = d :: reviewsOf key past := by
  simp [reviewsOf, sinceRestart, goesOn, acts]

theorem reviewsOf_other (goesOn : d.event ≠ .restart) (other : d.reviews key = false) :
    reviewsOf key (d :: past) = reviewsOf key past := by
  simp [reviewsOf, sinceRestart, goesOn, other]

theorem trailingConfirms_other (goesOn : d.event ≠ .restart) (other : d.reviews key = false) :
    trailingConfirms key (d :: past) = trailingConfirms key past := by
  unfold trailingConfirms
  rw [reviewsOf_other goesOn other]

theorem trailingConfirms_self {action : Action} (acts : d.event = .review action)
    (reviewed : d.reviews key = true) :
    trailingConfirms key (d :: past) =
      if action = .confirm then trailingConfirms key past + 1 else 0 := by
  have goesOn : d.event ≠ .restart := by
    rw [acts]
    exact Event.noConfusion
  unfold trailingConfirms
  rw [reviewsOf_self goesOn reviewed]
  by_cases confirms : action = .confirm
  · simp [acts, confirms]
  · simp [acts, confirms]

theorem lastTime_other (goesOn : d.event ≠ .restart) (other : d.reviews key = false) :
    lastTime key (d :: past) = lastTime key past := by
  unfold lastTime
  rw [reviewsOf_other goesOn other]

theorem lastTime_self (goesOn : d.event ≠ .restart) (acts : d.reviews key = true) :
    lastTime key (d :: past) = d.time := by
  unfold lastTime
  rw [reviewsOf_self goesOn acts]
  rfl

theorem newlyMastered_of_quiet (goesOn : d.event ≠ .restart) (keeps : d.event ≠ .clearMastered)
    (quiet : ∀ key, d.reviews key = false) : newlyMastered (d :: past) = newlyMastered past := by
  rw [newlyMastered, if_neg (not_or.2 ⟨goesOn, keeps⟩)]
  cases d.card with
  | none => rfl
  | some c =>
    have same : trailingConfirms c.id.key (d :: past) = trailingConfirms c.id.key past :=
      trailingConfirms_other goesOn (quiet c.id.key)
    have still : ¬ (trailingConfirms c.id.key past = 2 ∧
        trailingConfirms c.id.key (d :: past) = 3) := by
      rw [same]
      omega
    simp only [if_neg still]

theorem newlyMastered_review {action : Action} {c : Card} (acts : d.event = .review action)
    (shown : d.card = some c) (reviewed : d.reviews c.id.key = true) :
    newlyMastered (d :: past) =
      if action = .confirm ∧ trailingConfirms c.id.key past = 2 then some c
      else newlyMastered past := by
  have goesOn : ¬ (d.event = .restart ∨ d.event = .clearMastered) := by simp [acts]
  rw [newlyMastered, if_neg goesOn, shown]
  simp only [trailingConfirms_self acts reviewed]
  by_cases confirms : action = .confirm
  · have both : trailingConfirms c.id.key past = 2 ∧ trailingConfirms c.id.key past + 1 = 3 ↔
        trailingConfirms c.id.key past = 2 := by omega
    simp only [confirms, if_true, true_and, both]
  · simp [confirms]

end History

namespace Session

variable {σ : Type}

/-- The session is what its history makes it. -/
structure Recounts (s : Session σ) (past : List Deed) : Prop where
  marked : s.deck.progress.Marked
  absent : ∀ key, s.deck.progress.get? key = none ↔ History.reviewsOf key past = []
  present : ∀ key state, s.deck.progress.get? key = some state →
    state.timesConfirmed = History.trailingConfirms key past ∧
      History.lastTime key past = some state.lastReviewedAt
  mastered : s.deck.justMastered = History.newlyMastered past
  times : past.reverse.filterMap Deed.time = (List.range s.readings).map s.clock

theorem Recounts.count {s : Session σ} {past : List Deed} (recounts : s.Recounts past) (id : Json) :
    ((s.deck.progress.get? id.key).getD (.unseen id)).timesConfirmed =
      History.trailingConfirms id.key past := by
  cases found : s.deck.progress.get? id.key with
  | none =>
    have none_yet := (recounts.absent id.key).1 found
    simp [ReviewState.unseen, History.trailingConfirms, none_yet]
  | some state => exact (recounts.present id.key state found).1

theorem Recounts.quiet {s t : Session σ} {past : List Deed} (recounts : s.Recounts past) {d : Deed}
    (goesOn : d.event ≠ .restart) (quiet : ∀ key, d.reviews key = false) (untimed : d.time = none)
    (entries : t.deck.progress = s.deck.progress) (readings : t.readings = s.readings)
    (clock : t.clock = s.clock)
    (news : t.deck.justMastered = History.newlyMastered (d :: past)) : t.Recounts (d :: past) where
  marked := entries ▸ recounts.marked
  absent key := by
    rw [entries, History.reviewsOf_other goesOn (quiet key)]
    exact recounts.absent key
  present key state found := by
    rw [History.trailingConfirms_other goesOn (quiet key), History.lastTime_other goesOn (quiet key)]
    exact recounts.present key state (entries ▸ found)
  mastered := news
  times := by
    rw [List.reverse_cons, List.filterMap_append, recounts.times, clock, readings]
    simp [untimed]

def reviewDeed (s : Session σ) (action : Action) (c : Card) : Deed :=
  ⟨.review action, some c, some (s.clock s.readings)⟩

theorem reviewDeed_reviews (s : Session σ) {action : Action} (acts : action ≠ .skip) (c : Card)
    (key : Json.Key) : (s.reviewDeed action c).reviews key = decide (c.id.key = key) := by
  cases action with
  | confirm => simp [reviewDeed, Deed.reviews]
  | reject => simp [reviewDeed, Deed.reviews]
  | skip => exact absurd rfl acts

variable [KeyValueStore σ]

theorem Recounts.recorded {s : Session σ} {past : List Deed} (recounts : s.Recounts past)
    {action : Action} (acts : action ≠ .skip) (c : Card) :
    (s.recorded action c).Recounts (s.reviewDeed action c :: past) := by
  have goesOn : (s.reviewDeed action c).event ≠ .restart := Event.noConfusion
  have own : (s.reviewDeed action c).reviews c.id.key = true := by
    rw [reviewDeed_reviews s acts, decide_eq_true rfl]
  have other {key : Json.Key} (different : key ≠ c.id.key) :
      (s.reviewDeed action c).reviews key = false := by
    rw [reviewDeed_reviews s acts, decide_eq_false different.symm]
  have entry {key : Json.Key} (different : key ≠ c.id.key) :
      (s.recorded action c).deck.progress.get? key = s.deck.progress.get? key :=
    Assoc.get?_set_of_ne different ..
  have entry_own : (s.recorded action c).deck.progress.get? c.id.key =
      some (s.deck.progress.reviewed action c.id (s.clock s.readings)) := Assoc.get?_set_self ..
  have count := recounts.count c.id
  refine {
    marked := recounts.marked.set _ (Progress.marked_reviewed ..)
    absent := fun key => ?_, present := fun key state found => ?_, mastered := ?_, times := ?_ }
  · by_cases same : key = c.id.key
    · rw [same, entry_own, History.reviewsOf_self goesOn own]
      simp
    · rw [entry same, History.reviewsOf_other goesOn (other same)]
      exact recounts.absent key
  · by_cases same : key = c.id.key
    · rw [same, entry_own] at found
      rw [same, ← Option.some.inj found, History.trailingConfirms_self rfl own,
        History.lastTime_self goesOn own]
      refine ⟨?_, rfl⟩
      by_cases confirms : action = .confirm
      · simp [Progress.reviewed, confirms, count]
      · simp [Progress.reviewed, confirms]
    · rw [History.trailingConfirms_other goesOn (other same),
        History.lastTime_other goesOn (other same)]
      exact recounts.present key state ((entry same).symm.trans found)
  · have masters : (s.deck.progress.apply action c.id (s.clock s.readings)).2 = true ↔
        action = .confirm ∧ History.trailingConfirms c.id.key past = 2 := by
      rw [Progress.apply_masters_iff recounts.marked, count]
      exact and_congr_right fun _ => by omega
    rw [History.newlyMastered_review rfl rfl own, ← recounts.mastered]
    simp only [Session.recorded, Deck.recorded, masters]
  · rw [List.reverse_cons, List.filterMap_append, recounts.times]
    simp [Session.recorded, reviewDeed, List.range_succ]

def timeOf (s : Session σ) : Event → Option Int
  | .review action => if s.deck.records action then some (s.clock s.readings) else none
  | _ => none

theorem Recounts.steps {s t : Session σ} {past : List Deed} {e : Event} {c : Option Card}
    (recounts : s.Recounts past) (steps : Steps s e c t) (loads : e ≠ .reload) :
    t.Recounts (⟨e, c, s.timeOf e⟩ :: past) := by
  cases steps with
  | @idle action done =>
    have untimed : s.timeOf (.review action) = none := by simp [timeOf, Deck.records, done]
    have quiet (key : Json.Key) :
        Deed.reviews key ⟨.review action, none, s.timeOf (.review action)⟩ = false := by
      simp [Deed.reviews]
    exact recounts.quiet Event.noConfusion quiet untimed rfl rfl rfl
      (recounts.mastered.trans
        (History.newlyMastered_of_quiet Event.noConfusion Event.noConfusion quiet).symm)
  | @skip card shown =>
    have untimed : s.timeOf (.review .skip) = none := by simp [timeOf, Deck.records]
    have quiet (key : Json.Key) :
        Deed.reviews key ⟨.review .skip, some card, s.timeOf (.review .skip)⟩ = false := by
      simp [Deed.reviews]
    exact recounts.quiet Event.noConfusion quiet untimed rfl rfl rfl
      (recounts.mastered.trans
        (History.newlyMastered_of_quiet Event.noConfusion Event.noConfusion quiet).symm)
  | @act action card shown acts =>
    have timed : s.timeOf (.review action) = some (s.clock s.readings) := by
      simp [timeOf, Deck.records, shown, acts]
    rw [timed]
    exact recounts.recorded acts card
  | clear =>
    have quiet (key : Json.Key) :
        Deed.reviews key ⟨.clearMastered, none, s.timeOf .clearMastered⟩ = false := rfl
    exact recounts.quiet Event.noConfusion quiet rfl rfl rfl rfl (by simp [History.newlyMastered, Deck.clearMastered])
  | restart =>
    refine {
      marked := fun _ member => absurd member List.not_mem_nil
      absent := fun key => ?_, present := fun key state found => ?_, mastered := ?_, times := ?_ }
    · rw [History.reviewsOf_restart rfl]
      simp [Deck.restart]
    · simp [Deck.restart] at found
    · simp [History.newlyMastered, Deck.restart]
    · rw [List.reverse_cons, List.filterMap_append, recounts.times]
      simp [timeOf]
  | reload => exact absurd rfl loads

def deed (s : Session σ) (e : Event) : Deed := ⟨e, (s.step e).1, s.timeOf e⟩

def recount (s : Session σ) (past : List Deed) : List Event → List Deed
  | [] => past
  | e :: rest => (s.step e).2.recount (s.deed e :: past) rest

def past (s : Session σ) (events : List Event) : List Deed := s.recount [] events

theorem Recounts.run {s : Session σ} {past : List Deed} (recounts : s.Recounts past)
    (events : List Event) (loads : .reload ∉ events) :
    (s.run events).Recounts (s.recount past events) := by
  induction events generalizing s past with
  | nil => exact recounts
  | cons e rest ih =>
    have different : e ≠ .reload := fun same => loads (same ▸ List.mem_cons_self)
    have later : Event.reload ∉ rest := fun member => loads (List.mem_cons_of_mem _ member)
    exact ih (recounts.steps (s.steps_step e) different) later

theorem Recounts.start (cards : List Card) (key : String) (store : σ) (clock : Nat → Int)
    (empty : KeyValueStore.get? store key = .ok none) :
    (start cards key store clock).Recounts [] := by
  have progress : (Session.start cards key store clock).deck.progress = [] :=
    Deck.progress_opened_of_absent cards empty
  refine {
    marked := Deck.marked_opened cards store key
    absent := fun key => ?_, present := fun key state found => ?_, mastered := rfl, times := rfl }
  · simp [progress, History.reviewsOf, History.sinceRestart]
  · simp [progress] at found

theorem events_recount (s : Session σ) (past : List Deed) (events : List Event) :
    (s.recount past events).reverse.map Deed.event = past.reverse.map Deed.event ++ events := by
  induction events generalizing s past with
  | nil => simp [recount]
  | cons e rest ih =>
    rw [recount, ih, List.reverse_cons, List.map_append, List.append_assoc]
    rfl

theorem Steps.skip_progress {s t : Session σ} {c : Option Card}
    (steps : Steps s (.review .skip) c t) : t.deck.progress = s.deck.progress := by
  cases steps with
  | idle => rfl
  | skip => rfl
  | act _ acts => exact absurd rfl acts

/-- Over an empty store the entries and the news are read off the history: the count of a card is
that of its confirmations after its last rejection, since the last restart. -/
theorem run_history (cards : List Card) (key : String) (store : σ) (clock : Nat → Int)
    (empty : KeyValueStore.get? store key = .ok none) (events : List Event)
    (loads : .reload ∉ events) :
    let s := (start cards key store clock).run events
    let past := (start cards key store clock).past events
    past.reverse.map Deed.event = events ∧
    past.reverse.filterMap Deed.time = (List.range s.readings).map clock ∧
    (∀ id, (s.deck.progress.get? id).isSome = true ↔
      ∃ d ∈ History.sinceRestart past, d.reviews id = true) ∧
    (∀ id state, s.deck.progress.get? id = some state →
      state.timesConfirmed = History.trailingConfirms id past ∧
      (state.mastered = true ↔ 3 ≤ History.trailingConfirms id past) ∧
      History.lastTime id past = some state.lastReviewedAt) ∧
    (s.step (.review .skip)).2.deck.progress = s.deck.progress ∧
    s.deck.justMastered = History.newlyMastered past := by
  intro s past
  have recounts : s.Recounts past := (Recounts.start cards key store clock empty).run events loads
  have sameClock : s.clock = clock :=
    run_preserves (P := fun s => s.clock = clock)
      (fun held steps => by cases steps <;> exact held) rfl events
  refine ⟨?_, ?_, fun id => ?_, fun id state found => ?_, ?_, recounts.mastered⟩
  · exact events_recount ..
  · rw [recounts.times, sameClock]
  · rw [Option.isSome_iff_ne_none, Ne, recounts.absent]
    simp [History.reviewsOf, List.filter_eq_nil_iff]
  · obtain ⟨count, time⟩ := recounts.present id state found
    refine ⟨count, ?_, time⟩
    rw [(recounts.marked.get? found).mastered_iff, count]
    omega
  · exact (s.steps_step (.review .skip)).skip_progress

theorem history_of_three_confirms :
    KeyValueStore.get? (⟨[]⟩ : Memory) "progress:o/r" = .ok none ∧
    Event.reload ∉ [.review .confirm, .review .confirm, .review .skip, .review .confirm] ∧
    (((start [Card.ofId "a"] "progress:o/r" (⟨[]⟩ : Memory) fun n => n).run
      [.review .confirm, .review .confirm, .review .skip, .review .confirm]).deck.justMastered.map
      fun c => c.id.key) = some (.text "a") := by
  have loads : Event.reload ∉
    [.review .confirm, .review .confirm, .review .skip, .review .confirm] := by decide
  have told := run_history [Card.ofId "a"] "progress:o/r" (⟨[]⟩ : Memory) (fun n => n) rfl _ loads
  refine ⟨rfl, loads, ?_⟩
  rw [told.2.2.2.2.2]
  decide +kernel

end Session

end CodeDeck
