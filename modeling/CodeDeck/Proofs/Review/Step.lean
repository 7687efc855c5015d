import CodeDeck.Proofs.Json
import CodeDeck.Review.Session

/-! What one event does to a session. A confirmation or rejection sets the entry of the current card
and nothing else, and that card is one of the deck. Statements about whole runs rest on these. -/

namespace CodeDeck

def Card.ofId (id : String) : Card :=
  { id := .str id
    kind := .str "function"
    title := .str id
    filePath := .str "src/lib.ts"
    code := .str "export function f() \x7b\x7d"
    language := .str "typescript"
    explanation := .str "Explains f."
    difficulty := .int 1 }

theorem ReviewState.marked_of_ofJson {v : Json} {s : ReviewState} (read : ofJson v = .ok s) : s.Marked := by
  obtain ⟨_, _, read⟩ := ok_of_bind read
  obtain ⟨_, _, read⟩ := ok_of_bind read
  obtain ⟨_, _, read⟩ := ok_of_bind read
  obtain ⟨_, _, read⟩ := ok_of_bind read
  obtain ⟨_, _, read⟩ := ok_of_bind read
  obtain rfl := Except.ok.inj read
  rfl

namespace Progress

def reviewed (p : Progress) (action : Action) (cardId : Json) (now : Int) : ReviewState :=
  let before := (p.get? cardId.key).getD (.unseen cardId)
  let times := if action = .confirm then before.timesConfirmed + 1 else 0
  { before with
    timesConfirmed := times
    mastered := ReviewState.masteryThreshold ≤ times
    lastReviewedAt := now }

theorem apply_eq_set (p : Progress) (action : Action) (cardId : Json) (now : Int)
    (acts : action ≠ .skip) :
    (p.apply action cardId now).1 = p.set cardId.key (p.reviewed action cardId now) := by
  cases action with
  | confirm => rfl
  | reject => rfl
  | skip => exact absurd rfl acts

theorem marked_reviewed (p : Progress) (action : Action) (cardId : Json) (now : Int) :
    (p.reviewed action cardId now).Marked := rfl

theorem Marked.set {p : Progress} (marked : p.Marked) (key : Json.Key) {s : ReviewState} (own : s.Marked) :
    Progress.Marked (Assoc.set key s p) := fun _ member =>
  (Assoc.mem_values_set member).elim (fun same => same ▸ own) (marked _)

theorem Marked.get? {p : Progress} (marked : p.Marked) {key : Json.Key} {s : ReviewState}
    (found : p.get? key = some s) : s.Marked := marked s (Assoc.mem_values_of_get? found)

theorem Marked.getD {p : Progress} (marked : p.Marked) (cardId : Json) :
    ((p.get? cardId.key).getD (.unseen cardId)).Marked := by
  cases found : p.get? cardId.key with
  | none => exact ReviewState.marked_unseen cardId
  | some s => exact marked.get? found

/-- Mastery is new exactly when the count goes from two to three. -/
theorem apply_masters_iff {p : Progress} (marked : p.Marked) (action : Action) (cardId : Json) (now : Int) :
    (p.apply action cardId now).2 = true ↔
      action = .confirm ∧
        ((p.get? cardId.key).getD (.unseen cardId)).timesConfirmed = 2 := by
  have before := (marked.getD cardId).mastered_iff
  cases action with
  | confirm =>
    have news : (p.apply .confirm cardId now).2 =
        (decide (3 ≤ ((p.get? cardId.key).getD (.unseen cardId)).timesConfirmed + 1) &&
          !((p.get? cardId.key).getD (.unseen cardId)).mastered) := rfl
    simp only [news, Bool.and_eq_true, Bool.not_eq_true', ← Bool.not_eq_true, before, decide_eq_true_eq, true_and]
    omega
  | reject => simp [apply]
  | skip => simp [apply]

theorem field_of_readEntries {fields : List (String × Json)} {p : Progress} (read : readEntries fields = .ok p)
    {entry : Json.Key × ReviewState} (member : entry ∈ p) :
    ∃ name v, (name, v) ∈ fields ∧ entry.1 = .text name ∧ ReviewState.ofJson v = .ok entry.2 := by
  induction fields generalizing p with
  | nil =>
    obtain rfl : [] = p := Except.ok.inj read
    exact absurd member List.not_mem_nil
  | cons field rest ih =>
    obtain ⟨name, v⟩ := field
    obtain ⟨s, first, read⟩ := ok_of_bind read
    obtain ⟨later, others, read⟩ := ok_of_bind read
    obtain rfl : (.text name, s) :: later = p := Except.ok.inj read
    rcases List.mem_cons.1 member with rfl | inside
    · exact ⟨name, v, List.mem_cons_self, rfl, first⟩
    · obtain ⟨other, w, field, named, known⟩ := ih others inside
      exact ⟨other, w, List.mem_cons_of_mem _ field, named, known⟩

theorem ofJson_obj (fields : List (String × Json)) :
    ofJson (.obj fields) = (readEntries fields).map Assoc.ofList := by
  cases fields with
  | nil => rfl
  | cons field rest => simp [ofJson, Json.truthy]

theorem ofJson_cases {v : Json} {p : Progress} (read : ofJson v = .ok p) :
    p = [] ∨ ∃ fields entries,
      v = .obj fields ∧ readEntries fields = .ok entries ∧ p = Assoc.ofList entries := by
  cases v with
  | obj fields =>
    rw [ofJson_obj] at read
    cases entries : readEntries fields with
    | error fault => simp [entries, Except.map] at read
    | ok entries' =>
      rw [entries] at read
      injection read with same
      exact .inr ⟨fields, entries', rfl, entries, same.symm⟩
  | _ =>
    unfold ofJson at read
    split at read
    · simp at read
    · exact .inl (by simpa using read.symm)

theorem marked_ofJson {v : Json} {p : Progress} (read : ofJson v = .ok p) : p.Marked := by
  rcases ofJson_cases read with rfl | ⟨fields, entries, _, readable, rfl⟩
  · exact fun _ member => absurd member List.not_mem_nil
  · intro s member
    obtain ⟨entry, inside, rfl⟩ := List.mem_map.1 (Assoc.mem_values_ofList member)
    obtain ⟨_, _, _, _, known⟩ := field_of_readEntries readable inside
    exact ReviewState.marked_of_ofJson known

theorem distinct_ofJson {v : Json} {p : Progress} (read : ofJson v = .ok p) :
    p.Distinct := by
  rcases ofJson_cases read with rfl | ⟨fields, entries, _, _, rfl⟩
  · exact List.nodup_nil
  · exact Assoc.distinct_ofList entries

end Progress

namespace Queue

theorem mem_byAge (tier : List (Card × Int)) (c : Card) :
    c ∈ byAge tier ↔ ∃ time, (c, time) ∈ tier := by
  unfold byAge
  rw [List.mem_map]
  constructor
  · rintro ⟨⟨card, time⟩, member, rfl⟩
    exact ⟨time, (List.mergeSort_perm ..).mem_iff.1 member⟩
  · rintro ⟨time, member⟩
    exact ⟨(c, time), (List.mergeSort_perm ..).mem_iff.2 member, rfl⟩

theorem mem_seenTier (cards : List Card) (progress : Progress) (lastActed : Json)
    (mastered : Bool) (c : Card) (time : Int) :
    (c, time) ∈ seenTier cards progress lastActed mastered ↔
      c ∈ cards ∧ c.id.key ≠ lastActed.key ∧
        ∃ s, progress.get? c.id.key = some s ∧ s.mastered = mastered ∧ s.lastReviewedAt = time := by
  unfold seenTier
  rw [List.mem_filterMap]
  constructor
  · rintro ⟨card, member, found⟩
    cases entry : progress.get? card.id.key with
    | none => simp [entry] at found
    | some s =>
      simp only [entry, Option.ite_none_right_eq_some, Option.some.injEq, Prod.mk.injEq] at found
      obtain ⟨⟨same, different⟩, rfl, age⟩ := found
      exact ⟨member, different, s, entry, same, age⟩
  · rintro ⟨member, different, s, entry, same, age⟩
    refine ⟨c, member, ?_⟩
    simp [entry, same, different, age]

theorem mem_build (cards : List Card) (progress : Progress) (lastActed : Json) (c : Card) :
    c ∈ build cards progress lastActed ↔
      c ∈ cards ∧ (progress.get? c.id.key = none ∨ c.id.key ≠ lastActed.key) := by
  have seen (mastered : Bool) : c ∈ byAge (seenTier cards progress lastActed mastered) ↔
      c ∈ cards ∧ c.id.key ≠ lastActed.key ∧
        ∃ s, progress.get? c.id.key = some s ∧ s.mastered = mastered := by
    simp only [mem_byAge, mem_seenTier]
    constructor
    · rintro ⟨_, member, different, s, entry, same, _⟩
      exact ⟨member, different, s, entry, same⟩
    · rintro ⟨member, different, s, entry, same⟩
      exact ⟨s.lastReviewedAt, member, different, s, entry, same, rfl⟩
  unfold build
  rw [List.mem_append, List.mem_append, seen, seen, unseen, List.mem_filter]
  cases entry : progress.get? c.id.key with
  | none => simp [Assoc.has, entry]
  | some s => cases held : s.mastered <;> simp [Assoc.has, entry, held]

end Queue

namespace Deck

theorem mem_cards_of_current {d : Deck} {c : Card} (shown : d.current = some c) : c ∈ d.cards := by
  have member : c ∈ d.queue := List.mem_of_mem_head? shown
  unfold queue at member
  split at member
  · exact ((Queue.mem_build ..).1 member).1
  · exact ((Queue.mem_build ..).1 member).1

def recorded (d : Deck) (action : Action) (c : Card) (now : Int) : Deck :=
  { d with
    progress := d.progress.set c.id.key (d.progress.reviewed action c.id now)
    lastActed := c.id
    justMastered := if (d.progress.apply action c.id now).2 then some c else d.justMastered }

theorem distinct_opened {σ : Type} [KeyValueStore σ] (cards : List Card) (store : σ)
    (key : String) : (opened cards store key).progress.Distinct := by
  unfold opened load
  cases value : KeyValueStore.read store key with
  | error fault => exact List.nodup_nil
  | ok v =>
    simp only [Except.bind]
    cases read : Progress.ofJson v with
    | error fault => exact List.nodup_nil
    | ok p => exact Progress.distinct_ofJson read

theorem marked_opened {σ : Type} [KeyValueStore σ] (cards : List Card) (store : σ) (key : String) :
    (opened cards store key).progress.Marked := by
  unfold opened
  cases read : load store key with
  | error fault => exact fun _ member => absurd member List.not_mem_nil
  | ok p =>
    obtain ⟨v, _, known⟩ := ok_of_bind read
    exact Progress.marked_ofJson known

theorem load_absent {σ : Type} [KeyValueStore σ] {store : σ} {key : String}
    (absent : KeyValueStore.get? store key = .ok none) : load store key = .ok [] := by
  rw [load, KeyValueStore.read, absent]
  rfl

theorem progress_opened_of_absent {σ : Type} [KeyValueStore σ] (cards : List Card) {store : σ}
    {key : String} (absent : KeyValueStore.get? store key = .ok none) :
    (opened cards store key).progress = [] := by
  simp only [opened, load_absent absent]

theorem queue_opened_of_absent {σ : Type} [KeyValueStore σ] (cards : List Card) {store : σ}
    {key : String} (absent : KeyValueStore.get? store key = .ok none) : (opened cards store key).queue = cards := by
  have all (lastActed : Json) : Queue.build cards [] lastActed = cards := Queue.build_empty_progress cards lastActed
  unfold queue
  rw [progress_opened_of_absent cards absent]
  split
  · exact all .null
  · exact all _

end Deck

namespace Session

variable {σ : Type} [KeyValueStore σ]

def recorded (s : Session σ) (action : Action) (c : Card) : Session σ :=
  let deck := s.deck.recorded action c (s.clock s.readings)
  { s with deck := deck, store := deck.saved s.store, readings := s.readings + 1 }

def skipped (s : Session σ) (c : Card) : Session σ :=
  { s with deck := { s.deck with lastActed := c.id } }

/-- What each event does, with the card that it acts on. -/
inductive Steps (s : Session σ) : Event → Option Card → Session σ → Prop where
  | idle {action : Action} (done : s.deck.current = none) : Steps s (.review action) none s
  | skip {c : Card} (shown : s.deck.current = some c) :
      Steps s (.review .skip) (some c) (s.skipped c)
  | act {action : Action} {c : Card} (shown : s.deck.current = some c) (acts : action ≠ .skip) :
      Steps s (.review action) (some c) (s.recorded action c)
  | clear : Steps s .clearMastered none { s with deck := s.deck.clearMastered }
  | restart :
      Steps s .restart none { s with deck := s.deck.restart, store := s.deck.erased s.store }
  | reload :
      Steps s .reload none { s with deck := Deck.opened s.deck.cards s.store s.deck.key }

theorem review_of_empty {s : Session σ} (action : Action) (done : s.deck.current = none) :
    s.review action = (none, s) := by
  simp [review, Deck.review, Deck.records, done]

theorem review_skip {s : Session σ} {c : Card} (shown : s.deck.current = some c) :
    s.review .skip = (some c, s.skipped c) := by
  simp [review, Deck.review, Deck.records, shown, Progress.apply, skipped]

theorem review_recorded {s : Session σ} {c : Card} {action : Action}
    (shown : s.deck.current = some c) (acts : action ≠ .skip) :
    s.review action = (some c, s.recorded action c) := by
  have records : s.deck.records action = true := by simp [Deck.records, shown, acts]
  simp only [review, records, if_true, Deck.review, shown, recorded, Deck.recorded]
  rw [Progress.apply_eq_set _ _ _ _ acts]

theorem acted_of_current {s : Session σ} {c : Card} (shown : s.deck.current = some c) (action : Action) :
    (s.step (.review action)).1 = some c := by
  by_cases skips : action = .skip
  · rw [step, skips, review_skip shown]
  · rw [step, review_recorded shown skips]

theorem steps_step (s : Session σ) (e : Event) : Steps s e (s.step e).1 (s.step e).2 := by
  cases e with
  | review action =>
    rw [step]
    cases shown : s.deck.current with
    | none =>
      rw [review_of_empty action shown]
      exact .idle shown
    | some c =>
      by_cases skips : action = .skip
      · subst skips
        rw [review_skip shown]
        exact .skip shown
      · rw [review_recorded shown skips]
        exact .act shown skips
  | clearMastered => exact .clear
  | restart => exact .restart
  | reload => exact .reload

theorem Steps.cards {s t : Session σ} {e : Event} {c : Option Card} (steps : Steps s e c t) :
    t.deck.cards = s.deck.cards := by
  cases steps <;> rfl

theorem Steps.key {s t : Session σ} {e : Event} {c : Option Card} (steps : Steps s e c t) :
    t.deck.key = s.deck.key := by
  cases steps <;> rfl

theorem Steps.distinct {s t : Session σ} {e : Event} {c : Option Card} (steps : Steps s e c t)
    (distinct : s.deck.progress.Distinct) : t.deck.progress.Distinct := by
  cases steps with
  | idle => exact distinct
  | skip => exact distinct
  | act => exact Assoc.distinct_set distinct ..
  | clear => exact distinct
  | restart => exact List.nodup_nil
  | reload => exact Deck.distinct_opened ..

theorem run_preserves {P : Session σ → Prop}
    (kept : ∀ {s t e c}, P s → Steps s e c t → P t) {s : Session σ} (start : P s)
    (events : List Event) : P (s.run events) := by
  unfold run
  exact List.foldlRecOn events _ start fun s held e _ => kept held (s.steps_step e)

theorem run_cards (s : Session σ) (events : List Event) :
    (s.run events).deck.cards = s.deck.cards :=
  run_preserves (P := fun t => t.deck.cards = s.deck.cards)
    (fun held steps => steps.cards.trans held) rfl events

theorem run_key (s : Session σ) (events : List Event) : (s.run events).deck.key = s.deck.key :=
  run_preserves (P := fun t => t.deck.key = s.deck.key)
    (fun held steps => steps.key.trans held) rfl events

theorem run_distinct {s : Session σ} (distinct : s.deck.progress.Distinct) (events : List Event) :
    (s.run events).deck.progress.Distinct :=
  run_preserves (P := fun t => t.deck.progress.Distinct)
    (fun held steps => steps.distinct held) distinct events

/-- Two sessions, perhaps over different stores, that show the same. -/
structure Alike {σ τ : Type} (s : Session σ) (t : Session τ) : Prop where
  deck : s.deck = t.deck
  clock : s.clock = t.clock
  readings : s.readings = t.readings

theorem Alike.step {τ : Type} [KeyValueStore τ] {s : Session σ} {t : Session τ}
    (alike : Alike s t) (e : Event)
    (loads : e = .reload → Deck.load s.store s.deck.key = Deck.load t.store t.deck.key) :
    Alike (s.step e).2 (t.step e).2 := by
  obtain ⟨deck, clock, readings⟩ := alike
  cases e with
  | review action =>
    rw [Session.step, Session.step]
    cases shown : s.deck.current with
    | none =>
      rw [review_of_empty action shown, review_of_empty action (deck ▸ shown)]
      exact ⟨deck, clock, readings⟩
    | some c =>
      by_cases skips : action = .skip
      · subst skips
        rw [review_skip shown, review_skip (deck ▸ shown)]
        exact ⟨by rw [skipped, skipped, deck], clock, readings⟩
      · rw [review_recorded shown skips, review_recorded (deck ▸ shown) skips]
        exact ⟨by rw [recorded, recorded, deck, clock, readings], clock,
          congrArg (· + 1) readings⟩
  | clearMastered => exact ⟨congrArg Deck.clearMastered deck, clock, readings⟩
  | restart => exact ⟨congrArg Deck.restart deck, clock, readings⟩
  | reload =>
    refine ⟨?_, clock, readings⟩
    have same := loads rfl
    simp only [Session.step, Deck.opened]
    rw [same, deck]

def acted (s : Session σ) : List Event → List (Option Card)
  | [] => []
  | e :: rest => (s.step e).1 :: (s.step e).2.acted rest

@[simp]
theorem run_cons (s : Session σ) (e : Event) (events : List Event) :
    s.run (e :: events) = (s.step e).2.run events := rfl

end Session

end CodeDeck
