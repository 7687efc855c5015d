import CodeDeck.Proofs.Review.Step
import CodeDeck.Proofs.Sort

/-! Which card comes next. Unseen cards come first, in the order of the deck. Of the seen ones, without the
card acted on last, that one comes next which comes before all others; a single card always comes again. -/

namespace CodeDeck

/-- A card in need of work comes before a mastered one; apart from that, the longest not reviewed comes
first. -/
def ReviewState.ComesBefore (s t : ReviewState) : Prop :=
  s.mastered = false ∧ t.mastered = true ∨
    s.mastered = t.mastered ∧ s.lastReviewedAt < t.lastReviewedAt

theorem ReviewState.comesBefore_of_le {s t : ReviewState} (marked : s.Marked) (marked' : t.Marked)
    (fewer : s.timesConfirmed ≤ t.timesConfirmed) (older : s.lastReviewedAt < t.lastReviewedAt) :
    s.ComesBefore t := by
  cases first : s.mastered with
  | true =>
    have second : t.mastered = true :=
      marked'.mastered_iff.2 (Int.le_trans (marked.mastered_iff.1 first) fewer)
    exact .inr ⟨first.trans second.symm, older⟩
  | false =>
    cases second : t.mastered with
    | true => exact .inl ⟨first, second⟩
    | false => exact .inr ⟨first.trans second.symm, older⟩

namespace Queue

theorem head?_byAge {tier : List (Card × Int)} {c : Card} {time : Int} (member : (c, time) ∈ tier)
    (oldest : ∀ other ∈ tier, other ≠ (c, time) → time < other.2) : (byAge tier).head? = some c := by
  have perm := List.mergeSort_perm tier fun a b => decide (a.2 ≤ b.2)
  have sorted := pairwise_mergeSort_key (fun entry : Card × Int => entry.2) tier
  have kept := perm.mem_iff.2 member
  unfold byAge
  cases ordered : tier.mergeSort fun a b => decide (a.2 ≤ b.2) with
  | nil =>
    rw [ordered] at kept
    exact absurd kept List.not_mem_nil
  | cons first rest =>
    rw [ordered] at kept perm sorted
    have same : first = (c, time) := Classical.byContradiction fun different => by
      have younger := oldest first (perm.mem_iff.1 List.mem_cons_self) different
      rcases List.mem_cons.1 kept with equal | later
      · exact different equal.symm
      · exact absurd younger (Int.not_lt.2 ((List.pairwise_cons.1 sorted).1 _ later))
    rw [same]
    rfl

theorem byAge_nil : byAge [] = [] := by simp [byAge]

theorem seenTier_eq_nil {cards : List Card} {progress : Progress} {lastActed : Json} {mastered : Bool}
    (none : ∀ c ∈ cards, c.id.key ≠ lastActed.key → ∀ s, progress.get? c.id.key = some s →
      s.mastered ≠ mastered) : seenTier cards progress lastActed mastered = [] := by
  refine List.eq_nil_iff_forall_not_mem.2 fun entry member => ?_
  obtain ⟨inside, different, s, found, same, _⟩ :=
    (mem_seenTier cards progress lastActed mastered entry.1 entry.2).1 member
  exact none entry.1 inside different s found same

theorem head?_seenTier {cards : List Card} {progress : Progress} {lastActed : Json} {c : Card}
    {s : ReviewState} (member : c ∈ cards) (found : progress.get? c.id.key = some s)
    (free : c.id.key ≠ lastActed.key)
    (oldest : ∀ e ∈ cards, e ≠ c → e.id.key ≠ lastActed.key →
      ∀ t, progress.get? e.id.key = some t → t.mastered = s.mastered →
        s.lastReviewedAt < t.lastReviewedAt) :
    (byAge (seenTier cards progress lastActed s.mastered)).head? = some c := by
  refine head?_byAge ((mem_seenTier ..).2 ⟨member, free, s, found, rfl, rfl⟩) ?_
  rintro ⟨e, time⟩ inTier different
  obtain ⟨inside, others, t, entry, same, rfl⟩ := (mem_seenTier ..).1 inTier
  refine oldest e inside (fun equal => different ?_) others t entry same
  rw [equal, found] at entry
  rw [equal, Option.some.inj entry]

theorem unseen_eq_nil {cards : List Card} {progress : Progress}
    (seen : ∀ c ∈ cards, progress.get? c.id.key ≠ none) : unseen cards progress = [] := by
  refine List.filter_eq_nil_iff.2 fun c member => ?_
  simpa [Assoc.has, Option.isSome_iff_ne_none] using seen c member

/-- Where all cards have been seen, the queue starts with the card that comes before all others but the one
acted on last. -/
theorem head?_build {cards : List Card} {progress : Progress} {lastActed : Json} {c : Card}
    {s : ReviewState} (seen : ∀ e ∈ cards, progress.get? e.id.key ≠ none) (member : c ∈ cards)
    (found : progress.get? c.id.key = some s) (free : c.id.key ≠ lastActed.key)
    (first : ∀ e ∈ cards, e ≠ c → e.id.key ≠ lastActed.key →
      ∀ t, progress.get? e.id.key = some t → s.ComesBefore t) :
    (build cards progress lastActed).head? = some c := by
  have oldest : ∀ e ∈ cards, e ≠ c → e.id.key ≠ lastActed.key →
      ∀ t, progress.get? e.id.key = some t → t.mastered = s.mastered →
        s.lastReviewedAt < t.lastReviewedAt := by
    intro e inside different others t entry same
    rcases first e inside different others t entry with ⟨open_, held⟩ | ⟨_, older⟩
    · rw [same, open_] at held
      contradiction
    · exact older
  have head := head?_seenTier member found free oldest
  rw [build, unseen_eq_nil seen, List.nil_append, List.head?_append]
  cases held : s.mastered with
  | false =>
    rw [held] at head
    rw [head]
    rfl
  | true =>
    have closed : seenTier cards progress lastActed false = [] := by
      refine seenTier_eq_nil fun e inside others t entry => ?_
      by_cases same : e = c
      · rw [same, found] at entry
        rw [← Option.some.inj entry, held]
        exact Bool.noConfusion
      · rcases first e inside same others t entry with ⟨open_, _⟩ | ⟨equal, _⟩
        · rw [held] at open_
          contradiction
        · rw [← equal, held]
          exact Bool.noConfusion
    rw [held] at head
    rw [closed, byAge_nil, head]
    rfl

theorem build_of_unseen {cards : List Card} {progress : Progress} (lastActed : Json) {i : Nat}
    (inside : i < cards.length) (new : progress.get? cards[i].id.key = none)
    (seen : ∀ j (before : j < i), progress.get? cards[j].id.key ≠ none) :
    (build cards progress lastActed).head? = some cards[i] := by
  have first : (unseen cards progress).head? = some cards[i] := by
    rw [unseen, List.head?_filter, List.find?_eq_some_iff_getElem]
    refine ⟨by simp [Assoc.has, new], i, inside, rfl, fun j before => ?_⟩
    simpa [Assoc.has, Option.isSome_iff_ne_none] using seen j before
  rw [build, List.append_assoc, List.head?_append, first]
  rfl

end Queue

namespace Deck

theorem queue_of_head? {d : Deck} {c : Card}
    (head : (Queue.build d.cards d.progress d.lastActed).head? = some c) : d.current = some c := by
  unfold current queue
  split
  · next empty =>
    rw [empty] at head
    contradiction
  · exact head

theorem current_of_unseen {d : Deck} {i : Nat} (inside : i < d.cards.length)
    (new : d.progress.get? d.cards[i].id.key = none)
    (seen : ∀ j (before : j < i), d.progress.get? d.cards[j].id.key ≠ none) :
    d.current = some d.cards[i] :=
  queue_of_head? (Queue.build_of_unseen d.lastActed inside new seen)

def state (d : Deck) (c : Card) : ReviewState := (d.progress.get? c.id.key).getD (.unseen c.id)

theorem state_eq {d : Deck} {c : Card} {s : ReviewState} (found : d.progress.get? c.id.key = some s) :
    d.state c = s := by rw [state, found, Option.getD_some]

theorem current_of_seen {d : Deck} {c : Card} (seen : ∀ e ∈ d.cards, d.progress.get? e.id.key ≠ none)
    (member : c ∈ d.cards) (free : c.id.key ≠ d.lastActed.key)
    (first : ∀ e ∈ d.cards, e ≠ c → e.id.key ≠ d.lastActed.key → (d.state c).ComesBefore (d.state e)) :
    d.current = some c := by
  obtain ⟨s, found⟩ := Option.ne_none_iff_exists'.1 (seen c member)
  refine queue_of_head? (Queue.head?_build seen member found free fun e inside different others t entry => ?_)
  rw [← state_eq found, ← state_eq entry]
  exact first e inside different others

theorem current_of_single {d : Deck} {c : Card} (single : d.cards = [c]) (id : c.id.key ≠ .null)
    (seen : d.progress.get? c.id.key ≠ none) : d.current = some c := by
  obtain ⟨s, found⟩ := Option.ne_none_iff_exists'.1 seen
  have every : ∀ e ∈ d.cards, e = c := fun e member => List.mem_singleton.1 (single ▸ member)
  have head {lastActed : Json} (free : c.id.key ≠ lastActed.key) :
      (Queue.build d.cards d.progress lastActed).head? = some c :=
    Queue.head?_build (fun e member => every e member ▸ seen) (single ▸ List.mem_singleton_self c) found
      free fun e member different => absurd (every e member) different
  by_cases last : c.id.key = d.lastActed.key
  · have nothing : Queue.build d.cards d.progress d.lastActed = [] := by
      refine List.eq_nil_iff_forall_not_mem.2 fun e member => ?_
      obtain ⟨inside, open_⟩ := (Queue.mem_build ..).1 member
      rw [every e inside] at open_
      exact open_.elim seen fun different => different last
    rw [current, queue, nothing]
    exact head id
  · exact queue_of_head? (head last)

end Deck

end CodeDeck
