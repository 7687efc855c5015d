import CodeDeck.Proofs.Review.Current
import CodeDeck.Proofs.Review.Mastery
import CodeDeck.Proofs.Review.Persistence

/-! The same action over and over reaches the cards in turn. Before turn `k` each card has had as many turns as
the others or one more, and the card at `k` modulo the number of cards is the one that has waited longest. -/

namespace CodeDeck

/-- The number of turns of the place `i` among `n` places before turn `k`. -/
def turns (n k i : Nat) : Nat := k / n + if i < k % n then 1 else 0

/-- The turn in which the place `i` among `n` places comes for the `t`-th time, from zero. -/
def turnOf (n t i : Nat) : Nat := t * n + i

section Turns

variable {n k i : Nat}

theorem succ_turn (positive : 0 < n) (k : Nat) :
    k % n + 1 < n ∧ (k + 1) / n = k / n ∧ (k + 1) % n = k % n + 1 ∨
      k % n + 1 = n ∧ (k + 1) / n = k / n + 1 ∧ (k + 1) % n = 0 := by
  have whole := Nat.div_add_mod k n
  have bound := Nat.mod_lt k positive
  by_cases room : k % n + 1 < n
  · have next : k + 1 = n * (k / n) + (k % n + 1) := by omega
    refine .inl ⟨room, ?_, ?_⟩
    · rw [next, Nat.mul_add_div positive, Nat.div_eq_of_lt room, Nat.add_zero]
    · rw [next, Nat.mul_add_mod, Nat.mod_eq_of_lt room]
  · have last : k % n + 1 = n := by omega
    have next : k + 1 = n * (k / n + 1) := by
      rw [Nat.mul_add, Nat.mul_one]
      omega
    refine .inr ⟨last, ?_, ?_⟩
    · rw [next, Nat.mul_div_cancel_left _ positive]
    · rw [next, Nat.mul_mod_right]

theorem turns_succ (positive : 0 < n) (inside : i < n) :
    turns n (k + 1) i = if i = k % n then turns n k i + 1 else turns n k i := by
  unfold turns
  rcases succ_turn positive k with ⟨_, quotient, remainder⟩ | ⟨last, quotient, remainder⟩
  · rw [quotient, remainder]
    split_ifs <;> omega
  · rw [quotient, remainder]
    split_ifs <;> omega

theorem turns_own (n k : Nat) : turns n k (k % n) = k / n := by simp [turns]

theorem turnOf_own (n k : Nat) : turnOf n (turns n k (k % n)) (k % n) = k := by
  rw [turns_own, turnOf, Nat.mul_comm]
  exact Nat.div_add_mod k n

theorem turns_zero (n i : Nat) : turns n 0 i = 0 := by simp [turns]

theorem turnOf_last_lt {t u : Nat} (own : turns n k (k % n) = t + 1) (other : turns n k i = u + 1)
    (inside : i < n) (different : i ≠ k % n) : turnOf n t (k % n) < turnOf n u i := by
  rw [turns_own] at own
  unfold turns at other
  unfold turnOf
  by_cases before : i < k % n
  · rw [if_pos before] at other
    have more : u = t + 1 := by omega
    have bound := Nat.mod_lt k (Nat.zero_lt_of_lt inside)
    rw [more, Nat.succ_mul]
    omega
  · rw [if_neg before] at other
    have same : u = t := by omega
    rw [same]
    omega

theorem le_turns (n k i : Nat) : k / n ≤ turns n k i := Nat.le_add_right ..

theorem div_eq_two_iff (positive : 0 < n) : k / n = 2 ↔ 2 * n ≤ k ∧ k < 3 * n := by
  rw [← Nat.le_div_iff_mul_le positive, ← Nat.div_lt_iff_lt_mul positive]
  omega

end Turns

/-- The entry of a card after one more turn than `t`, all with one action. -/
def stateAfter (action : Action) (id : Json) (t : Nat) (now : Int) : ReviewState where
  cardId := id
  timesConfirmed := if action = .confirm then t + 1 else 0
  mastered := action = .confirm ∧ 3 ≤ t + 1
  lastReviewedAt := now

theorem marked_stateAfter (action : Action) (id : Json) (t : Nat) (now : Int) :
    (stateAfter action id t now).Marked := by
  by_cases confirms : action = .confirm
  · have count : (3 : Int) ≤ t + 1 ↔ 3 ≤ t + 1 := by omega
    simp [ReviewState.Marked, ReviewState.masteryThreshold, stateAfter, confirms, count]
  · simp [ReviewState.Marked, ReviewState.masteryThreshold, stateAfter, confirms]

def entryAfter (clock : Nat → Int) (n : Nat) (action : Action) (id : Json) (i : Nat) :
    Nat → Option ReviewState
  | 0 => none
  | t + 1 => some (stateAfter action id t (clock (turnOf n t i)))

theorem entryAfter_eq_none_iff {clock : Nat → Int} {n : Nat} {action : Action} {id : Json} {i t : Nat} :
    entryAfter clock n action id i t = none ↔ t = 0 := by
  cases t with
  | zero => simp [entryAfter]
  | succ t => simp [entryAfter]

theorem entryAfter_succ {p : Progress} {clock : Nat → Int} {n i t : Nat} {action : Action} {id : Json}
    (found : p.get? id.key = entryAfter clock n action id i t) :
    entryAfter clock n action id i (t + 1) = some (p.reviewed action id (clock (turnOf n t i))) := by
  refine congrArg some (ReviewState.eq_of_marked (marked_stateAfter ..) (Progress.marked_reviewed ..) ?_ ?_ ?_)
  · cases t <;> simp [Progress.reviewed, found, entryAfter, stateAfter, ReviewState.unseen]
  · cases t <;> by_cases confirms : action = .confirm <;>
      simp [Progress.reviewed, found, entryAfter, stateAfter, ReviewState.unseen, confirms]
  · rfl

namespace Session

variable {σ : Type}

/-- Before turn `k` with the action, from a deck without progress on. -/
structure InTurn (s : Session σ) (action : Action) (k : Nat) : Prop where
  ids : HasTextIds s.deck.cards
  distinct : (s.deck.cards.map (·.id.key)).Nodup
  nonempty : 0 < s.deck.cards.length
  rising : ∀ i j, i < j → s.clock i < s.clock j
  readings : s.readings = k
  marked : s.deck.progress.Marked
  entries : ∀ i c, s.deck.cards[i]? = some c → s.deck.progress.get? c.id.key =
    entryAfter s.clock s.deck.cards.length action c.id i (turns s.deck.cards.length k i)
  last : ∀ j c, k = j + 1 → s.deck.cards[j % s.deck.cards.length]? = some c → s.deck.lastActed = c.id

variable {s : Session σ} {action : Action} {k i j : Nat} {c e : Card}

theorem lt_of_place (placed : s.deck.cards[i]? = some c) : i < s.deck.cards.length :=
  (List.getElem?_eq_some_iff.1 placed).1

namespace InTurn

theorem place_eq (inTurn : s.InTurn action k) (placed : s.deck.cards[i]? = some c)
    (placed' : s.deck.cards[j]? = some e) (same : c.id.key = e.id.key) : i = j := by
  have inside : i < (s.deck.cards.map (·.id.key)).length := by
    rw [List.length_map]
    exact lt_of_place placed
  refine (List.getElem?_inj inside inTurn.distinct).1 ?_
  rw [List.getElem?_map, List.getElem?_map, placed, placed', Option.map_some, Option.map_some, same]

theorem exists_place (inTurn : s.InTurn action k) (j : Nat) :
    ∃ c, s.deck.cards[j % s.deck.cards.length]? = some c :=
  ⟨_, List.getElem?_eq_getElem (Nat.mod_lt j inTurn.nonempty)⟩

theorem seen_iff (inTurn : s.InTurn action k) (placed : s.deck.cards[i]? = some c) :
    s.deck.progress.get? c.id.key ≠ none ↔ turns s.deck.cards.length k i ≠ 0 := by
  rw [inTurn.entries i c placed, Ne, entryAfter_eq_none_iff]

theorem state_eq (inTurn : s.InTurn action k) (placed : s.deck.cards[i]? = some c) {t : Nat}
    (reached : turns s.deck.cards.length k i = t + 1) :
    s.deck.state c = stateAfter action c.id t (s.clock (turnOf s.deck.cards.length t i)) := by
  refine Deck.state_eq ?_
  rw [inTurn.entries i c placed, reached]
  rfl

theorem comesBefore (inTurn : s.InTurn action k)
    (placed : s.deck.cards[k % s.deck.cards.length]? = some c) (placed' : s.deck.cards[i]? = some e)
    (different : i ≠ k % s.deck.cards.length) (started : k / s.deck.cards.length ≠ 0) :
    (s.deck.state c).ComesBefore (s.deck.state e) := by
  obtain ⟨t, quotient⟩ := Nat.exists_eq_add_one_of_ne_zero started
  have own : turns s.deck.cards.length k (k % s.deck.cards.length) = t + 1 := (turns_own ..).trans quotient
  have fewest : t + 1 ≤ turns s.deck.cards.length k i := quotient ▸ le_turns ..
  obtain ⟨u, other⟩ : ∃ u, turns s.deck.cards.length k i = u + 1 :=
    Nat.exists_eq_add_one_of_ne_zero (by omega)
  have older := inTurn.rising _ _ (turnOf_last_lt own other (lt_of_place placed') different)
  rw [inTurn.state_eq placed own, inTurn.state_eq placed' other]
  refine ReviewState.comesBefore_of_le (marked_stateAfter ..) (marked_stateAfter ..) ?_ older
  change (if action = .confirm then (t : Int) + 1 else 0) ≤ if action = .confirm then (u : Int) + 1 else 0
  split
  · omega
  · exact Int.le_refl 0

theorem shown (inTurn : s.InTurn action k) (placed : s.deck.cards[k % s.deck.cards.length]? = some c) :
    s.deck.current = some c := by
  have member : c ∈ s.deck.cards := List.mem_of_getElem? placed
  by_cases started : k / s.deck.cards.length = 0
  · -- the first round: all cards in front of this one have had their turn
    obtain ⟨inside, same⟩ := List.getElem?_eq_some_iff.1 placed
    rw [← same]
    refine Deck.current_of_unseen inside ?_ fun j before => ?_
    · rw [same, inTurn.entries _ c placed, turns_own, started]
      rfl
    · refine (inTurn.seen_iff (List.getElem?_eq_getElem (Nat.lt_trans before inside))).2 ?_
      simp [turns, before]
  · have seen : ∀ e ∈ s.deck.cards, s.deck.progress.get? e.id.key ≠ none := by
      intro e inside
      obtain ⟨i, placed'⟩ := List.mem_iff_getElem?.1 inside
      refine (inTurn.seen_iff placed').2 ?_
      have fewest := le_turns s.deck.cards.length k i
      have positive := Nat.pos_of_ne_zero started
      exact Nat.ne_of_gt (Nat.lt_of_lt_of_le positive fewest)
    by_cases single : s.deck.cards.length = 1
    · obtain ⟨e, only⟩ := List.length_eq_one_iff.1 single
      obtain rfl : c = e := by simpa [only] using member
      refine Deck.current_of_single only ?_ (seen c member)
      obtain ⟨name, text⟩ := inTurn.ids c member
      rw [text]
      exact Json.Key.noConfusion
    · refine Deck.current_of_seen seen member ?_ fun e inside different _ => ?_
      · have begun : k ≠ 0 := fun zero => started (by rw [zero, Nat.zero_div])
        obtain ⟨j, rfl⟩ := Nat.exists_eq_add_one_of_ne_zero begun
        obtain ⟨e, placed'⟩ := inTurn.exists_place j
        rw [inTurn.last j e rfl placed']
        intro same
        have places := inTurn.place_eq placed placed' same
        rcases succ_turn inTurn.nonempty j with ⟨_, _, next⟩ | ⟨last, _, next⟩
        · omega
        · omega
      · obtain ⟨i, placed'⟩ := List.mem_iff_getElem?.1 inside
        refine inTurn.comesBefore placed placed' (fun same => different ?_) started
        rw [same, placed] at placed'
        exact (Option.some.inj placed').symm

variable [KeyValueStore σ]

theorem recorded (inTurn : s.InTurn action k) (placed : s.deck.cards[k % s.deck.cards.length]? = some c) :
    (s.recorded action c).InTurn action (k + 1) := by
  have entry_own : (s.recorded action c).deck.progress.get? c.id.key =
      some (s.deck.progress.reviewed action c.id (s.clock s.readings)) := Assoc.get?_set_self ..
  refine {
    ids := inTurn.ids
    distinct := inTurn.distinct
    nonempty := inTurn.nonempty
    rising := inTurn.rising
    readings := congrArg (· + 1) inTurn.readings
    marked := inTurn.marked.set _ (Progress.marked_reviewed ..)
    entries := fun i e placed' => ?_
    last := fun j e same placed' => ?_ }
  · change s.deck.cards[i]? = some e at placed'
    change (s.recorded action c).deck.progress.get? e.id.key = entryAfter s.clock s.deck.cards.length
      action e.id i (turns s.deck.cards.length (k + 1) i)
    rw [turns_succ inTurn.nonempty (lt_of_place placed')]
    by_cases own : i = k % s.deck.cards.length
    · obtain rfl : e = c := Option.some.inj (placed'.symm.trans (own ▸ placed))
      have reached := entryAfter_succ (own ▸ inTurn.entries _ e placed)
      rw [if_pos own, entry_own, reached, own, turnOf_own, inTurn.readings]
    · have different : e.id.key ≠ c.id.key := fun same => own (inTurn.place_eq placed' placed same)
      have kept : (s.recorded action c).deck.progress.get? e.id.key = s.deck.progress.get? e.id.key :=
        Assoc.get?_set_of_ne different ..
      rw [if_neg own, kept, inTurn.entries i e placed']
  · obtain rfl : k = j := Nat.succ.inj same
    have shown : some c = some e := placed.symm.trans placed'
    exact congrArg Card.id (Option.some.inj shown)

theorem step (inTurn : s.InTurn action k) (acts : action ≠ .skip)
    (placed : s.deck.cards[k % s.deck.cards.length]? = some c) :
    s.step (.review action) = (some c, s.recorded action c) :=
  review_recorded (inTurn.shown placed) acts

theorem recorded_justMastered (inTurn : s.InTurn action k)
    (placed : s.deck.cards[k % s.deck.cards.length]? = some c) :
    (s.recorded action c).deck.justMastered =
      if action = .confirm ∧ k / s.deck.cards.length = 2 then some c else s.deck.justMastered := by
  have count : action = .confirm →
      ((s.deck.progress.get? c.id.key).getD (.unseen c.id)).timesConfirmed =
        (k / s.deck.cards.length : Nat) := by
    rintro rfl
    rw [inTurn.entries _ c placed, turns_own]
    cases k / s.deck.cards.length with
    | zero => rfl
    | succ t => rfl
  have masters : (s.deck.progress.apply action c.id (s.clock s.readings)).2 = true ↔
      action = .confirm ∧ k / s.deck.cards.length = 2 := by
    rw [Progress.apply_masters_iff inTurn.marked]
    refine and_congr_right fun confirms => ?_
    rw [count confirms]
    omega
  simp only [Session.recorded, Deck.recorded, masters]

theorem run (inTurn : s.InTurn action k) (acts : action ≠ .skip) (m : Nat) :
    (s.run (List.replicate m (.review action))).InTurn action (k + m) := by
  induction m generalizing s k with
  | zero => exact inTurn
  | succ m ih =>
    obtain ⟨c, placed⟩ := inTurn.exists_place k
    rw [List.replicate_succ, run_cons, inTurn.step acts placed, ← Nat.succ_add_eq_add_succ]
    exact ih (inTurn.recorded placed)

theorem start {cards : List Card} (ids : HasTextIds cards) (distinct : (cards.map (·.id.key)).Nodup)
    (nonempty : cards ≠ []) (key : String) {store : σ} (empty : KeyValueStore.get? store key = .ok none)
    {clock : Nat → Int} (rising : ∀ i j, i < j → clock i < clock j) (action : Action) :
    (start cards key store clock).InTurn action 0 where
  ids := ids
  distinct := distinct
  nonempty := List.length_pos_iff.2 nonempty
  rising := rising
  readings := rfl
  marked := Deck.marked_opened cards store key
  entries i c _ := by
    have fresh : (Session.start cards key store clock).deck.progress = [] :=
      Deck.progress_opened_of_absent cards empty
    rw [fresh, turns_zero]
    rfl
  last j c same _ := absurd same (Nat.succ_ne_zero j).symm

theorem cleared (inTurn : s.InTurn action k) : (s.step .clearMastered).2.InTurn action k :=
  ⟨inTurn.ids, inTurn.distinct, inTurn.nonempty, inTurn.rising, inTurn.readings, inTurn.marked,
    inTurn.entries, inTurn.last⟩

omit [KeyValueStore σ] in
theorem holdsMastered_iff (inTurn : s.InTurn .confirm k) (placed : s.deck.cards[i]? = some c) :
    s.deck.holdsMastered c = true ↔ 3 ≤ turns s.deck.cards.length k i := by
  rw [Deck.holdsMastered, inTurn.entries i c placed]
  cases turns s.deck.cards.length k i with
  | zero => simp [entryAfter]
  | succ t =>
    simp [entryAfter, stateAfter]

omit [KeyValueStore σ] in
theorem all_held_iff (inTurn : s.InTurn .confirm k) :
    (∀ c ∈ s.deck.cards, s.deck.holdsMastered c = true) ↔ 3 * s.deck.cards.length ≤ k := by
  rw [← Nat.le_div_iff_mul_le inTurn.nonempty]
  constructor
  · intro held
    obtain ⟨c, placed⟩ := inTurn.exists_place k
    rw [← turns_own]
    exact (inTurn.holdsMastered_iff placed).1 (held c (List.mem_of_getElem? placed))
  · intro rounds c member
    obtain ⟨i, placed⟩ := List.mem_iff_getElem?.1 member
    exact (inTurn.holdsMastered_iff placed).2 (Nat.le_trans rounds (le_turns ..))

theorem confirm_justMastered (inTurn : s.InTurn .confirm k)
    (placed : s.deck.cards[k % s.deck.cards.length]? = some c) :
    (s.step (.review .confirm)).2.deck.justMastered =
      if 2 * s.deck.cards.length ≤ k ∧ k < 3 * s.deck.cards.length then some c else s.deck.justMastered := by
  rw [inTurn.step Action.noConfusion placed]
  have news := inTurn.recorded_justMastered placed
  simp only [true_and, div_eq_two_iff inTurn.nonempty] at news
  exact news

omit [KeyValueStore σ] in
theorem allMastered_iff (inTurn : s.InTurn .confirm k) (stored : s.deck.progress.Distinct)
    (known : s.deck.NoStrangers) : s.deck.allMastered = true ↔ 3 * s.deck.cards.length ≤ k := by
  rw [(Deck.tellsOwn_of_noStrangers stored inTurn.distinct known).completes, inTurn.all_held_iff]
  exact and_iff_right (List.length_pos_iff.1 inTurn.nonempty)

end InTurn

variable [KeyValueStore σ]

theorem noStrangers_reviewed (cards : List Card) (key : String) {store : σ}
    (empty : KeyValueStore.get? store key = .ok none) (clock : Nat → Int) (k : Nat) (action : Action) :
    ((start cards key store clock).run (List.replicate k (.review action))).deck.NoStrangers := by
  have loads : Event.reload ∉ List.replicate k (Event.review action) := fun member =>
    Event.noConfusion (List.eq_of_mem_replicate member)
  refine (run_noStrangers_iff _ _ loads).2 (.inr ?_)
  have fresh : (start cards key store clock).deck.progress = [] :=
    Deck.progress_opened_of_absent cards empty
  intro name state found _
  rw [fresh] at found
  exact nomatch found

/-- The same action over and over reaches the cards round by round. Confirmations master each card in the third
round, in which its mastery is news, and the deck is complete behind that round and not before. -/
theorem run_round_robin {cards : List Card} (ids : HasTextIds cards)
    (distinct : (cards.map (·.id.key)).Nodup) (nonempty : cards ≠ []) (key : String) {store : σ}
    (empty : KeyValueStore.get? store key = .ok none) {clock : Nat → Int}
    (rising : ∀ i j, i < j → clock i < clock j) (k : Nat) :
    let n := cards.length
    let after (action : Action) := (start cards key store clock).run (List.replicate k (.review action))
    ∃ c, cards[k % n]? = some c ∧
      ((after .confirm).step (.review .confirm)).1 = some c ∧
      ((after .confirm).step (.review .confirm)).2.deck.justMastered =
        (if 2 * n ≤ k ∧ k < 3 * n then some c else (after .confirm).deck.justMastered) ∧
      (((after .confirm).step .clearMastered).2.step (.review .confirm)).2.deck.justMastered =
        (if 2 * n ≤ k ∧ k < 3 * n then some c else none) ∧
      ((after .confirm).deck.allMastered = true ↔ 3 * n ≤ k) ∧
      ((after .reject).step (.review .reject)).1 = some c := by
  intro n after
  have inTurn (action : Action) (acts : action ≠ .skip) : (after action).InTurn action k := by
    have reached := (InTurn.start ids distinct nonempty key empty rising action).run acts k
    rwa [Nat.zero_add] at reached
  have cards_after (action : Action) : (after action).deck.cards = cards := run_cards ..
  obtain ⟨c, placed⟩ : ∃ c, cards[k % n]? = some c :=
    ⟨_, List.getElem?_eq_getElem (Nat.mod_lt k (List.length_pos_iff.2 nonempty))⟩
  have place (action : Action) :
      (after action).deck.cards[k % (after action).deck.cards.length]? = some c := by
    rw [cards_after]
    exact placed
  have confirms := inTurn .confirm Action.noConfusion
  have news := confirms.confirm_justMastered (place .confirm)
  have newsAlone := confirms.cleared.confirm_justMastered (place .confirm)
  have complete := confirms.allMastered_iff (run_distinct (Deck.distinct_opened ..) _)
    (noStrangers_reviewed cards key empty clock k .confirm)
  have length_after : (after .confirm).deck.cards.length = n := congrArg List.length (cards_after .confirm)
  have length_cleared : ((after .confirm).step .clearMastered).2.deck.cards.length = n := length_after
  rw [length_after] at news complete
  rw [length_cleared] at newsAlone
  refine ⟨c, placed, ?_, news, newsAlone, complete, ?_⟩
  · rw [confirms.step Action.noConfusion (place .confirm)]
  · rw [(inTurn .reject Action.noConfusion).step Action.noConfusion (place .reject)]

def twoCards : List Card := [Card.ofId "a", Card.ofId "b"]

def ticks (n : Nat) : Int := n

/-- With two cards the fifth confirmation masters the first one, and the deck is not complete before it. -/
theorem two_cards_in_turn :
    HasTextIds twoCards ∧ (twoCards.map (·.id.key)).Nodup ∧ twoCards ≠ [] ∧
    KeyValueStore.get? (⟨[]⟩ : Memory) "progress:o/r" = .ok none ∧ (∀ i j, i < j → ticks i < ticks j) ∧
    let n := twoCards.length
    let after (action : Action) :=
      (start twoCards "progress:o/r" (⟨[]⟩ : Memory) ticks).run (List.replicate 4 (.review action))
    ∃ c, twoCards[4 % n]? = some c ∧
      ((after .confirm).step (.review .confirm)).1 = some c ∧
      ((after .confirm).step (.review .confirm)).2.deck.justMastered =
        (if 2 * n ≤ 4 ∧ 4 < 3 * n then some c else (after .confirm).deck.justMastered) ∧
      (((after .confirm).step .clearMastered).2.step (.review .confirm)).2.deck.justMastered =
        (if 2 * n ≤ 4 ∧ 4 < 3 * n then some c else none) ∧
      ((after .confirm).deck.allMastered = true ↔ 3 * n ≤ 4) ∧
      ((after .reject).step (.review .reject)).1 = some c := by
  have ids : HasTextIds twoCards := hasTextIds_ofId ["a", "b"]
  have distinct : (twoCards.map (·.id.key)).Nodup := by decide
  have nonempty : twoCards ≠ [] := List.cons_ne_nil _ _
  have empty : KeyValueStore.get? (⟨[]⟩ : Memory) "progress:o/r" = .ok none := rfl
  have rising (i j : Nat) (less : i < j) : ticks i < ticks j := Int.ofNat_lt.2 less
  exact ⟨ids, distinct, nonempty, empty, rising,
    run_round_robin ids distinct nonempty "progress:o/r" empty rising 4⟩

end Session

end CodeDeck
