import Mathlib.Data.List.Nodup
import CodeDeck.Proofs.Review.Current
import CodeDeck.Proofs.Review.Persistence

/-! No card that needs work starves. Once all cards have been seen, each confirmation or rejection makes the
card it acts on the latest one, and leaves those that still wait in their order. -/

namespace CodeDeck

namespace Deck

def reviewedAt (d : Deck) (c : Card) : Int := (d.state c).lastReviewedAt

def waiting (d : Deck) : List Card := d.cards.filter fun c => !(d.state c).mastered

variable {d : Deck} {action : Action} {c e : Card} {now : Int}

theorem mem_waiting : c ∈ d.waiting ↔ c ∈ d.cards ∧ (d.state c).mastered = false := by
  rw [waiting, List.mem_filter, Bool.not_eq_true']

theorem reviewedAt_recorded_self : (d.recorded action c now).reviewedAt c = now := by
  have found : (d.recorded action c now).progress.get? c.id.key =
      some (d.progress.reviewed action c.id now) := Assoc.get?_set_self ..
  rw [reviewedAt, state_eq found]
  rfl

theorem state_recorded_of_ne (different : e.id.key ≠ c.id.key) :
    (d.recorded action c now).state e = d.state e := by
  have kept : (d.recorded action c now).progress.get? e.id.key = d.progress.get? e.id.key :=
    Assoc.get?_set_of_ne different ..
  rw [state, state, kept]

theorem seen_recorded (seen : d.progress.get? e.id.key ≠ none) :
    (d.recorded action c now).progress.get? e.id.key ≠ none := by
  by_cases same : e.id.key = c.id.key
  · have found : (d.recorded action c now).progress.get? c.id.key = some _ := Assoc.get?_set_self ..
    rw [same, found]
    exact Option.some_ne_none _
  · have kept : (d.recorded action c now).progress.get? e.id.key = d.progress.get? e.id.key :=
      Assoc.get?_set_of_ne same ..
    rw [kept]
    exact seen

end Deck

namespace Session

variable {σ : Type}

/-- All cards have been seen, each at a time of its own and before the readings to come; the card acted on
last, if there is one, is the latest. -/
structure AllSeen (s : Session σ) : Prop where
  ids : HasTextIds s.deck.cards
  distinct : (s.deck.cards.map (·.id.key)).Nodup
  seen : ∀ c ∈ s.deck.cards, s.deck.progress.get? c.id.key ≠ none
  apart : ∀ c ∈ s.deck.cards, ∀ e ∈ s.deck.cards, s.deck.reviewedAt c = s.deck.reviewedAt e → c = e
  rising : ∀ i j, s.readings ≤ i → i < j → s.clock i < s.clock j
  past : ∀ c ∈ s.deck.cards, s.deck.reviewedAt c < s.clock s.readings
  last : s.deck.lastActed = .null ∨ ∃ c ∈ s.deck.cards, s.deck.lastActed = c.id ∧
    ∀ e ∈ s.deck.cards, s.deck.reviewedAt e ≤ s.deck.reviewedAt c

variable {s : Session σ}

theorem AllSeen.key_ne (all : s.AllSeen) {c e : Card} (member : c ∈ s.deck.cards)
    (member' : e ∈ s.deck.cards) (different : c ≠ e) : c.id.key ≠ e.id.key := fun same =>
  different (List.inj_on_of_nodup_map all.distinct member member' same)

variable [KeyValueStore σ]

theorem AllSeen.recorded (all : s.AllSeen) (action : Action) {c : Card} (member : c ∈ s.deck.cards) :
    (s.recorded action c).AllSeen := by
  have next : s.clock s.readings < s.clock (s.readings + 1) :=
    all.rising _ _ (Nat.le_refl _) (Nat.lt_succ_self _)
  have own : (s.recorded action c).deck.reviewedAt c = s.clock s.readings :=
    Deck.reviewedAt_recorded_self
  have kept {e : Card} (inside : e ∈ s.deck.cards) (different : e ≠ c) :
      (s.recorded action c).deck.reviewedAt e = s.deck.reviewedAt e :=
    congrArg ReviewState.lastReviewedAt (Deck.state_recorded_of_ne (all.key_ne inside member different))
  have latest : ∀ e ∈ s.deck.cards, e ≠ c →
      (s.recorded action c).deck.reviewedAt e < (s.recorded action c).deck.reviewedAt c := by
    intro e inside different
    rw [kept inside different, own]
    exact all.past e inside
  refine {
    ids := all.ids
    distinct := all.distinct
    seen := fun e inside => Deck.seen_recorded (all.seen e inside)
    apart := ?_
    rising := fun i j from_ => all.rising i j (Nat.le_of_succ_le from_)
    past := ?_
    last := .inr ⟨c, member, rfl, ?_⟩ }
  · intro e inside f inside' same
    by_cases first : e = c
    · by_cases second : f = c
      · rw [first, second]
      · rw [first] at same
        exact absurd (latest f inside' second) (Int.not_lt.2 (Int.le_of_eq same))
    · by_cases second : f = c
      · rw [second] at same
        exact absurd (latest e inside first) (Int.not_lt.2 (Int.le_of_eq same.symm))
      · rw [kept inside first, kept inside' second] at same
        exact all.apart e inside f inside' same
  · intro e inside
    change (s.recorded action c).deck.reviewedAt e < s.clock (s.readings + 1)
    by_cases same : e = c
    · rw [same, own]
      exact next
    · rw [kept inside same]
      exact Int.lt_trans (all.past e inside) next
  · intro e inside
    by_cases same : e = c
    · exact Int.le_of_eq (congrArg _ same)
    · exact Int.le_of_lt (latest e inside same)

/-- The cards stand in line: the longest not reviewed first, in front of all others that need work. The first
one is not the card acted on last. -/
structure InLine (s : Session σ) (line : List Card) : Prop where
  waits : ∀ c ∈ line, c ∈ s.deck.waiting
  ordered : line.Pairwise fun c e => s.deck.reviewedAt c < s.deck.reviewedAt e
  front : ∀ e ∈ s.deck.waiting, e ∉ line → ∀ c ∈ line, s.deck.reviewedAt c < s.deck.reviewedAt e
  free : ∀ c, line.head? = some c → c.id.key ≠ s.deck.lastActed.key

variable {c : Card} {rest : List Card}

omit [KeyValueStore σ] in
theorem InLine.shown (inLine : s.InLine (c :: rest)) (all : s.AllSeen) : s.deck.current = some c := by
  obtain ⟨member, open_⟩ := Deck.mem_waiting.1 (inLine.waits c List.mem_cons_self)
  refine Deck.current_of_seen all.seen member (inLine.free c rfl) fun e inside different _ => ?_
  cases held : (s.deck.state e).mastered with
  | true => exact .inl ⟨open_, held⟩
  | false =>
    refine .inr ⟨open_.trans held.symm, ?_⟩
    by_cases queued : e ∈ rest
    · exact (List.pairwise_cons.1 inLine.ordered).1 e queued
    · have elsewhere : e ∉ c :: rest := fun listed => (List.mem_cons.1 listed).elim different queued
      exact inLine.front e (Deck.mem_waiting.2 ⟨inside, held⟩) elsewhere c List.mem_cons_self

/-- What is done to the first card does not concern those behind it, and puts it behind them all. -/
theorem InLine.recorded (inLine : s.InLine (c :: rest)) (all : s.AllSeen) (action : Action) :
    (s.recorded action c).InLine rest := by
  obtain ⟨older, ordered⟩ := List.pairwise_cons.1 inLine.ordered
  have member : c ∈ s.deck.cards := (Deck.mem_waiting.1 (inLine.waits c List.mem_cons_self)).1
  have known {e : Card} (queued : e ∈ rest) : e ∈ s.deck.cards :=
    (Deck.mem_waiting.1 (inLine.waits e (List.mem_cons_of_mem _ queued))).1
  have apart {e : Card} (queued : e ∈ rest) : e ≠ c := fun same =>
    absurd (older e queued) (same ▸ Int.lt_irrefl _)
  have kept {e : Card} (inside : e ∈ s.deck.cards) (different : e ≠ c) :
      (s.recorded action c).deck.state e = s.deck.state e :=
    Deck.state_recorded_of_ne (all.key_ne inside member different)
  have sameTime {e : Card} (inside : e ∈ s.deck.cards) (different : e ≠ c) :
      (s.recorded action c).deck.reviewedAt e = s.deck.reviewedAt e :=
    congrArg ReviewState.lastReviewedAt (kept inside different)
  refine { waits := ?_, ordered := ?_, front := ?_, free := ?_ }
  · intro e queued
    obtain ⟨inside, open_⟩ := Deck.mem_waiting.1 (inLine.waits e (List.mem_cons_of_mem _ queued))
    refine Deck.mem_waiting.2 ⟨inside, ?_⟩
    rw [kept inside (apart queued), open_]
  · refine ordered.imp_of_mem fun queued queued' less => ?_
    rw [sameTime (known queued) (apart queued), sameTime (known queued') (apart queued')]
    exact less
  · -- A card that waits outside the line is either the one just reviewed, which has the newest time, or was outside
    -- before.
    intro e waits elsewhere f queued
    obtain ⟨inside, open_⟩ := Deck.mem_waiting.1 waits
    rw [sameTime (known queued) (apart queued)]
    by_cases same : e = c
    · have now : (s.recorded action c).deck.reviewedAt c = s.clock s.readings :=
        Deck.reviewedAt_recorded_self
      rw [same, now]
      exact all.past f (known queued)
    · rw [kept inside same] at open_
      rw [sameTime inside same]
      refine inLine.front e (Deck.mem_waiting.2 ⟨inside, open_⟩) ?_ f (List.mem_cons_of_mem _ queued)
      exact fun listed => (List.mem_cons.1 listed).elim same elsewhere
  · intro e head
    have queued := List.mem_of_mem_head? head
    exact all.key_ne (known queued) member (apart queued)

theorem InLine.acted {line : List Card} (inLine : s.InLine line) (all : s.AllSeen) {actions : List Action}
    (acts : ∀ a ∈ actions, a ≠ .skip) (enough : actions.length = line.length) :
    s.acted (actions.map .review) = line.map some := by
  induction line generalizing s actions with
  | nil =>
    obtain rfl : actions = [] := List.eq_nil_of_length_eq_zero enough
    rfl
  | cons c rest ih =>
    obtain ⟨action, later, rfl⟩ := List.exists_cons_of_length_eq_add_one enough
    have step := review_recorded (inLine.shown all) (acts action List.mem_cons_self)
    have member : c ∈ s.deck.cards := (Deck.mem_waiting.1 (inLine.waits c List.mem_cons_self)).1
    have others := ih (inLine.recorded all action) (all.recorded action member)
      (fun a listed => acts a (List.mem_cons_of_mem _ listed)) (Nat.succ.inj enough)
    rw [List.map_cons, List.map_cons, Session.acted, Session.step, step, others]

def line (s : Session σ) : List Card :=
  s.deck.waiting.mergeSort fun c e => s.deck.reviewedAt c ≤ s.deck.reviewedAt e

omit [KeyValueStore σ] in
theorem line_perm (s : Session σ) : s.line.Perm s.deck.waiting := List.mergeSort_perm ..

omit [KeyValueStore σ] in
theorem AllSeen.line_ordered (all : s.AllSeen) :
    s.line.Pairwise fun c e => s.deck.reviewedAt c < s.deck.reviewedAt e := by
  have sorted := pairwise_mergeSort_key s.deck.reviewedAt s.deck.waiting
  have nodup : s.line.Nodup :=
    (line_perm s).nodup_iff.2 (List.Nodup.filter _ (List.Nodup.of_map _ all.distinct))
  refine (sorted.and nodup).imp_of_mem fun member member' both => ?_
  have inside {c : Card} (listed : c ∈ s.line) : c ∈ s.deck.cards :=
    (Deck.mem_waiting.1 ((line_perm s).mem_iff.1 listed)).1
  refine Int.lt_iff_le_and_ne.2 ⟨both.1, fun same => both.2 ?_⟩
  exact all.apart _ (inside member) _ (inside member') same

omit [KeyValueStore σ] in
theorem AllSeen.inLine (all : s.AllSeen) (many : 2 ≤ s.deck.waiting.length) : s.InLine s.line := by
  have ordered := all.line_ordered
  have waits (c : Card) : c ∈ s.line ↔ c ∈ s.deck.waiting := (line_perm s).mem_iff
  refine {
    waits := fun c member => (waits c).1 member
    ordered := ordered
    front := fun e member elsewhere => absurd ((waits e).2 member) elsewhere
    free := ?_ }
  intro c head same
  obtain ⟨rest, queue⟩ := List.head?_eq_some_iff.1 head
  have member : c ∈ s.deck.cards :=
    (Deck.mem_waiting.1 ((waits c).1 (queue ▸ List.mem_cons_self))).1
  obtain ⟨second, later, behind⟩ : ∃ second later, rest = second :: later := by
    refine List.exists_cons_of_length_pos ?_
    have length := (line_perm s).length_eq
    rw [queue, List.length_cons] at length
    omega
  rw [queue, behind] at ordered
  have younger := (List.pairwise_cons.1 ordered).1 second List.mem_cons_self
  have member' : second ∈ s.deck.cards := by
    refine (Deck.mem_waiting.1 ((waits second).1 ?_)).1
    rw [queue, behind]
    exact List.mem_cons_of_mem _ List.mem_cons_self
  obtain ⟨name, text⟩ := all.ids c member
  rcases all.last with none | ⟨e, inside, acted, latest⟩
  · rw [none, text] at same
    contradiction
  · rw [acted] at same
    have equal : c = e := List.inj_on_of_nodup_map all.distinct member inside same
    exact absurd younger (Int.not_lt.2 (equal ▸ latest second member'))

/-- As many actions as there are cards in need of work reach each of them once, the longest not reviewed
first, whatever the mix of confirmations and rejections. -/
theorem waiting_all_reached (all : s.AllSeen) (many : 2 ≤ s.deck.waiting.length) {actions : List Action}
    (acts : ∀ a ∈ actions, a ≠ .skip) (enough : actions.length = s.deck.waiting.length) :
    ∃ reached : List Card, s.acted (actions.map .review) = reached.map some ∧
      reached.Perm s.deck.waiting ∧
      reached.Pairwise fun c e => s.deck.reviewedAt c < s.deck.reviewedAt e := by
  refine ⟨s.line, ?_, line_perm s, all.line_ordered⟩
  exact (all.inLine many).acted all acts (enough.trans (line_perm s).length_eq.symm)

def pausedSession : Session Memory where
  deck :=
    { cards := [Card.ofId "a", Card.ofId "b", Card.ofId "c"]
      key := "progress:o/r"
      progress :=
        [(.text "a", ⟨.str "a", 0, false, 9⟩), (.text "b", ⟨.str "b", 2, false, 4⟩),
          (.text "c", ⟨.str "c", 3, true, 2⟩)]
      lastActed := .str "a" }
  store := ⟨[]⟩
  clock n := 10 + n

theorem allSeen_pausedSession : pausedSession.AllSeen where
  ids := hasTextIds_ofId ["a", "b", "c"]
  distinct := by decide
  seen := by decide
  apart := by
    have times : pausedSession.deck.cards.map pausedSession.deck.reviewedAt = [9, 4, 2] := by decide
    have nodup : (pausedSession.deck.cards.map pausedSession.deck.reviewedAt).Nodup := by
      rw [times]
      decide
    exact fun c member e member' same => List.inj_on_of_nodup_map nodup member member' same
  rising i j _ less := by
    change (10 : Int) + i < 10 + j
    omega
  past := by decide
  last := .inr ⟨Card.ofId "a", List.mem_cons_self, rfl, by decide⟩

theorem both_waiting_reached :
    pausedSession.AllSeen ∧ 2 ≤ pausedSession.deck.waiting.length ∧
    (∀ a ∈ [Action.confirm, .reject], a ≠ .skip) ∧
    ∃ reached : List Card, pausedSession.acted [.review .confirm, .review .reject] = reached.map some ∧
      reached.Perm pausedSession.deck.waiting ∧
      reached.Pairwise fun c e => pausedSession.deck.reviewedAt c < pausedSession.deck.reviewedAt e := by
  have many : 2 ≤ pausedSession.deck.waiting.length := by decide
  have acts : ∀ a ∈ [Action.confirm, .reject], a ≠ .skip := by decide
  exact ⟨allSeen_pausedSession, many, acts,
    waiting_all_reached allSeen_pausedSession many acts (by decide)⟩

end Session

end CodeDeck
