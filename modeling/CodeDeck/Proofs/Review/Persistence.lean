import CodeDeck.Proofs.Json.Limits
import CodeDeck.Proofs.Review.Current
import CodeDeck.Proofs.Store

/-! What a session holds is what its store would give back, as long as it can be written. A stored entry is read
through its count, so that its mark of mastery does not matter, and what is written is read back as it was. Progress
that cannot be written stays in the session, and the store with what it has taken before. -/

namespace CodeDeck

/-- The ids of the cards are texts, as the names of stored entries are. -/
def HasTextIds (cards : List Card) : Prop := ∀ c ∈ cards, ∃ name, c.id = .str name

theorem hasTextIds_ofId (names : List String) : HasTextIds (names.map Card.ofId) := by
  intro c member
  obtain ⟨name, _, rfl⟩ := List.mem_map.1 member
  exact ⟨name, rfl⟩

def Json.put (name : String) (value : Json) : Json → Json
  | obj fields => obj (Assoc.set name value fields)
  | v => v

theorem ReviewState.ofJson_put_mastered (mark v : Json) :
    ofJson (Json.put "mastered" mark v) = ofJson v := by
  cases v with
  | obj fields =>
    have field (name : String) (other : name ≠ "mastered") :
        Assoc.get? name (Assoc.set "mastered" mark fields) = Assoc.get? name fields :=
      Assoc.get?_set_of_ne other ..
    simp only [Json.put, ofJson, Json.askOr, Json.ask, Json.require]
    rw [field "timesConfirmed" (by decide), field "cardId" (by decide),
      field "lastReviewedAt" (by decide)]
  | _ => rfl

namespace Progress

def remarked (mark : String → Json) : Json → Json
  | .obj fields => .obj (fields.map fun entry => (entry.1, Json.put "mastered" (mark entry.1) entry.2))
  | v => v

theorem readEntries_remarked (mark : String → Json) (fields : List (String × Json)) :
    readEntries (fields.map fun entry => (entry.1, Json.put "mastered" (mark entry.1) entry.2)) =
      readEntries fields := by
  induction fields with
  | nil => rfl
  | cons field rest ih =>
    rw [List.map_cons, readEntries, readEntries, ih, ReviewState.ofJson_put_mastered]

theorem ofJson_remarked (mark : String → Json) (v : Json) :
    ofJson (remarked mark v) = ofJson v := by
  cases v with
  | obj fields => rw [remarked, ofJson_obj, ofJson_obj, readEntries_remarked]
  | _ => rfl

theorem isNamed_iff (p : Progress) : p.IsNamed ↔ ∀ key ∈ p.keys, ∃ name, key = .text name := by
  unfold IsNamed Assoc.keys
  rw [List.forall_mem_map]

theorem isNamed_set {p : Progress} (named : p.IsNamed) (name : String) (s : ReviewState) :
    IsNamed (p.set (.text name) s) := by
  rw [isNamed_iff] at named ⊢
  intro key member
  rw [Assoc.keys_set] at member
  split at member
  · exact named key member
  · rcases List.mem_append.1 member with old | new
    · exact named key old
    · exact ⟨name, List.mem_singleton.1 new⟩

theorem isNamed_ofList {entries : List (Json.Key × ReviewState)} (named : IsNamed entries) :
    IsNamed (Assoc.ofList entries) := by
  suffices all : ∀ p : Progress, p.IsNamed →
      IsNamed (entries.foldl (fun m entry => Assoc.set entry.1 entry.2 m) p) from
    all [] (by simp [IsNamed])
  induction entries with
  | nil => exact fun p held => held
  | cons entry rest ih =>
    intro p held
    obtain ⟨name, text⟩ := named entry List.mem_cons_self
    have later : IsNamed rest := fun e member => named e (List.mem_cons_of_mem _ member)
    rw [List.foldl_cons, text]
    exact ih later _ (isNamed_set held name entry.2)

theorem isNamed_readEntries {fields : List (String × Json)} {p : Progress}
    (read : readEntries fields = .ok p) : p.IsNamed := by
  intro entry member
  obtain ⟨name, _, _, text, _⟩ := field_of_readEntries read member
  exact ⟨name, text⟩

theorem isNamed_ofJson {v : Json} {p : Progress} (read : ofJson v = .ok p) : p.IsNamed := by
  rcases ofJson_cases read with rfl | ⟨fields, entries, _, readable, rfl⟩
  · simp [IsNamed]
  · exact isNamed_ofList (isNamed_readEntries readable)

end Progress

def Memory.remarked (mark : String → Json) (key : String) (m : Memory) : Memory :=
  match m.entries.get? key with
  | some v => ⟨m.entries.set key (Progress.remarked mark v)⟩
  | none => m

theorem Memory.distinct_remarked {m : Memory} (distinct : m.entries.Distinct)
    (mark : String → Json) (key : String) : (m.remarked mark key).entries.Distinct := by
  unfold remarked
  split
  · exact Assoc.distinct_set distinct ..
  · exact distinct

theorem Deck.load_of_get? {m : Memory} {key : String} {v : Json}
    (stored : m.entries.get? key = some v) : load m key = Progress.ofJson v := by
  simp [load, KeyValueStore.read, KeyValueStore.get?, stored, Except.map, Except.bind]

theorem Deck.load_of_absent {m : Memory} {key : String} (absent : m.entries.get? key = none) :
    load m key = .ok [] := load_absent (congrArg Except.ok absent)

theorem Deck.exists_load {m : Memory} {key : String}
    (readable : ∀ v, m.entries.get? key = some v → ∃ p, Progress.ofJson v = .ok p) :
    ∃ p, load m key = .ok p := by
  cases stored : m.entries.get? key with
  | none => exact ⟨[], load_of_absent stored⟩
  | some v =>
    obtain ⟨p, read⟩ := readable v stored
    exact ⟨p, (load_of_get? stored).trans read⟩

theorem Deck.load_remarked (mark : String → Json) (key : String) (m : Memory) :
    load (m.remarked mark key) key = load m key := by
  cases stored : m.entries.get? key with
  | none => rw [Memory.remarked, stored]
  | some v =>
    have rewritten : (m.remarked mark key).entries.get? key = some (Progress.remarked mark v) := by
      rw [Memory.remarked, stored]
      exact Assoc.get?_set_self ..
    rw [load_of_get? rewritten, load_of_get? stored, Progress.ofJson_remarked]

namespace Deck

variable (d : Deck) (m : Memory)

theorem saved_cases :
    d.progress.toJson.isWritable = true ∧ d.saved m = ⟨m.entries.set d.key d.progress.toJson⟩ ∨
      d.progress.toJson.isWritable = false ∧ d.saved m = m := by
  rcases m.set_cases d.key d.progress.toJson with ⟨writable, after⟩ | ⟨unwritable, after⟩
  · exact .inl ⟨writable, congrArg Prod.snd after⟩
  · exact .inr ⟨unwritable, congrArg Prod.snd after⟩

variable {d m}

theorem load_saved_of_isWritable (writable : d.progress.toJson.isWritable = true) :
    load (d.saved m) d.key = Progress.ofJson d.progress.toJson := by
  rcases d.saved_cases m with ⟨_, after⟩ | ⟨unwritable, _⟩
  · rw [after]
    exact load_of_get? (Assoc.get?_set_self ..)
  · exact nomatch writable.symm.trans unwritable

theorem distinct_saved (distinct : m.entries.Distinct) : (d.saved m).entries.Distinct := by
  rcases d.saved_cases m with ⟨_, after⟩ | ⟨_, after⟩
  · rw [after]
    exact Assoc.distinct_set distinct ..
  · rwa [after]

theorem load_saved_congr {m' : Memory} (same : load m d.key = load m' d.key) :
    load (d.saved m) d.key = load (d.saved m') d.key := by
  rcases d.saved_cases m with ⟨writable, _⟩ | ⟨unwritable, after⟩
  · rw [load_saved_of_isWritable writable, load_saved_of_isWritable writable]
  · rcases d.saved_cases m' with ⟨writable, _⟩ | ⟨_, after'⟩
    · exact nomatch writable.symm.trans unwritable
    · rw [after, after', same]

theorem load_erased (distinct : m.entries.Distinct) : load (d.erased m) d.key = .ok [] :=
  load_of_absent (Assoc.get?_erase_self distinct _)

theorem isNamed_load {key : String} {p : Progress} (loads : load m key = .ok p) : p.IsNamed := by
  obtain ⟨_, _, read⟩ := ok_of_bind loads
  exact Progress.isNamed_ofJson read

end Deck

/-- What is kept of the progress is the progress, if that can be written; the entries of strangers are kept in any
case. -/
structure Progress.KeptAs (p : Progress) (cards : List Card) (kept : Progress) : Prop where
  same : p.toJson.isWritable = true → kept = p
  strangers : ∀ id, (∀ c ∈ cards, c.id.key ≠ id) → kept.get? id = p.get? id

theorem Progress.KeptAs.refl (p : Progress) (cards : List Card) : p.KeptAs cards p := ⟨fun _ => rfl, fun _ _ => rfl⟩

namespace Session

structure Persisted (s : Session Memory) : Prop where
  ids : HasTextIds s.deck.cards
  entries : s.store.entries.Distinct
  distinct : s.deck.progress.Distinct
  named : s.deck.progress.IsNamed
  marked : s.deck.progress.Marked
  loads : ∃ kept, Deck.load s.store s.deck.key = .ok kept ∧ s.deck.progress.KeptAs s.deck.cards kept

variable {s t : Session Memory} {e : Event} {c : Option Card}

theorem Persisted.of_opened {cards : List Card} {key : String} (fresh : s.deck = Deck.opened cards s.store key)
    (ids : HasTextIds cards) (entries : s.store.entries.Distinct) (readable : ∃ p, Deck.load s.store key = .ok p) :
    s.Persisted := by
  obtain ⟨deck, store, clock, readings⟩ := s
  obtain rfl : deck = Deck.opened cards store key := fresh
  obtain ⟨p, loads⟩ := readable
  have progress : (Deck.opened cards store key).progress = p := by rw [Deck.opened, loads]
  exact {
    ids := ids
    entries := entries
    distinct := Deck.distinct_opened ..
    named := progress ▸ Deck.isNamed_load loads
    marked := Deck.marked_opened cards store key
    loads := ⟨p, loads, progress ▸ Progress.KeptAs.refl p cards⟩ }

theorem Persisted.progress_opened (held : s.Persisted) :
    s.deck.progress.KeptAs s.deck.cards (Deck.opened s.deck.cards s.store s.deck.key).progress := by
  obtain ⟨kept, loads, keeps⟩ := held.loads
  have opened : (Deck.opened s.deck.cards s.store s.deck.key).progress = kept := by rw [Deck.opened, loads]
  exact opened ▸ keeps

theorem Persisted.recorded (held : s.Persisted) (action : Action) {c : Card} (shown : s.deck.current = some c) :
    (s.recorded action c).Persisted := by
  obtain ⟨name, text⟩ := held.ids c (Deck.mem_cards_of_current shown)
  have distinct : (s.recorded action c).deck.progress.Distinct := Assoc.distinct_set held.distinct ..
  have named : (s.recorded action c).deck.progress.IsNamed := by
    rw [Session.recorded, Deck.recorded, text]
    exact Progress.isNamed_set held.named name _
  have marked : (s.recorded action c).deck.progress.Marked := held.marked.set _ (Progress.marked_reviewed ..)
  have loads : ∃ kept, Deck.load (s.recorded action c).store s.deck.key = .ok kept ∧
      (s.recorded action c).deck.progress.KeptAs s.deck.cards kept := by
    rcases (s.recorded action c).deck.saved_cases s.store with ⟨writable, _⟩ | ⟨unwritable, after⟩
    · have written : Deck.load (s.recorded action c).store s.deck.key =
          Progress.ofJson (s.recorded action c).deck.progress.toJson := Deck.load_saved_of_isWritable writable
      exact ⟨_, written.trans (Progress.ofJson_toJson distinct named marked), .refl ..⟩
    · obtain ⟨kept, before, keeps⟩ := held.loads
      have same : (s.recorded action c).store = s.store := after
      refine ⟨kept, same ▸ before, fun writable => ?_, fun id stranger => ?_⟩
      · exact absurd (writable.symm.trans unwritable) Bool.noConfusion
      have other : id ≠ c.id.key := (stranger c (Deck.mem_cards_of_current shown)).symm
      exact (keeps.strangers id stranger).trans (Assoc.get?_set_of_ne other ..).symm
  exact {
    ids := held.ids
    entries := Deck.distinct_saved held.entries
    distinct := distinct
    named := named
    marked := marked
    loads := loads }

theorem Persisted.restarted (held : s.Persisted) :
    Persisted { s with deck := s.deck.restart, store := s.deck.erased s.store } where
  ids := held.ids
  entries := Assoc.distinct_erase held.entries _
  distinct := List.nodup_nil
  named _ member := absurd member List.not_mem_nil
  marked _ member := absurd member List.not_mem_nil
  loads := ⟨[], Deck.load_erased held.entries, .refl ..⟩

theorem Persisted.steps (held : s.Persisted) (steps : Steps s e c t) : t.Persisted := by
  cases steps with
  | idle => exact held
  | skip => exact ⟨held.ids, held.entries, held.distinct, held.named, held.marked, held.loads⟩
  | act shown => exact held.recorded _ shown
  | clear => exact ⟨held.ids, held.entries, held.distinct, held.named, held.marked, held.loads⟩
  | restart => exact held.restarted
  | reload =>
    obtain ⟨kept, loads, _⟩ := held.loads
    exact .of_opened rfl held.ids held.entries ⟨kept, loads⟩

theorem Persisted.get?_steps (held : s.Persisted) (steps : Steps s e c t) (remembers : e ≠ .restart) {id : Json.Key}
    (stranger : ∀ card ∈ s.deck.cards, card.id.key ≠ id) :
    t.deck.progress.get? id = s.deck.progress.get? id := by
  cases steps with
  | idle => rfl
  | skip => rfl
  | act shown =>
    exact Assoc.get?_set_of_ne (stranger _ (Deck.mem_cards_of_current shown)).symm ..
  | clear => rfl
  | restart => exact absurd rfl remembers
  | reload => exact held.progress_opened.strangers id stranger

theorem Persisted.get?_run (held : s.Persisted) {events : List Event} (remembers : .restart ∉ events) {id : Json.Key}
    (stranger : ∀ card ∈ s.deck.cards, card.id.key ≠ id) :
    (s.run events).deck.progress.get? id = s.deck.progress.get? id := by
  induction events generalizing s with
  | nil => rfl
  | cons e rest ih =>
    have steps := s.steps_step e
    have different : e ≠ .restart := fun same => remembers (same ▸ List.mem_cons_self)
    have later : Event.restart ∉ rest := fun member => remembers (List.mem_cons_of_mem _ member)
    rw [run_cons, ih (held.steps steps) later (steps.cards ▸ stranger)]
    exact held.get?_steps steps different stranger

theorem Persisted.run (held : s.Persisted) (events : List Event) : (s.run events).Persisted :=
  run_preserves (P := Persisted) (fun held steps => held.steps steps) held events

structure Twins (s t : Session Memory) : Prop where
  alike : Alike s t
  loads : Deck.load s.store s.deck.key = Deck.load t.store t.deck.key
  entries : s.store.entries.Distinct
  entries' : t.store.entries.Distinct

theorem Twins.start (mark : String → Json) (cards : List Card) (key : String) {m : Memory}
    (distinct : m.entries.Distinct) (clock : Nat → Int) :
    Twins (Session.start cards key (m.remarked mark key) clock) (Session.start cards key m clock) where
  alike := by
    refine ⟨?_, rfl, rfl⟩
    simp only [Session.start, Deck.opened, Deck.load_remarked]
  loads := Deck.load_remarked mark key m
  entries := Memory.distinct_remarked distinct mark key
  entries' := distinct

theorem Twins.step (twins : Twins s t) (e : Event) : Twins (s.step e).2 (t.step e).2 := by
  have alike := twins.alike.step e fun _ => twins.loads
  obtain ⟨⟨deck, clock, readings⟩, loads, entries, entries'⟩ := twins
  cases e with
  | review action =>
    rw [Session.step, Session.step] at alike ⊢
    cases shown : s.deck.current with
    | none =>
      rw [review_of_empty action shown, review_of_empty action (deck ▸ shown)] at alike ⊢
      exact ⟨alike, loads, entries, entries'⟩
    | some c =>
      by_cases skips : action = .skip
      · subst skips
        rw [review_skip shown, review_skip (deck ▸ shown)] at alike ⊢
        exact ⟨alike, loads, entries, entries'⟩
      · rw [review_recorded shown skips, review_recorded (deck ▸ shown) skips] at alike ⊢
        refine ⟨alike, ?_, Deck.distinct_saved entries, Deck.distinct_saved entries'⟩
        have same : Deck.load s.store (s.recorded action c).deck.key =
            Deck.load t.store (s.recorded action c).deck.key := by
          rw [← deck] at loads
          exact loads
        calc
          _ = Deck.load ((s.recorded action c).deck.saved t.store) (s.recorded action c).deck.key :=
            Deck.load_saved_congr same
          _ = _ := by
            rw [alike.deck]
            rfl
  | clearMastered => exact ⟨alike, loads, entries, entries'⟩
  | restart =>
    refine ⟨alike, ?_, Assoc.distinct_erase entries _, Assoc.distinct_erase entries' _⟩
    exact (Deck.load_erased entries).trans (Deck.load_erased entries').symm
  | reload => exact ⟨alike, loads, entries, entries'⟩

theorem Twins.run (twins : Twins s t) (events : List Event) : Twins (s.run events) (t.run events) := by
  induction events generalizing s t with
  | nil => exact twins
  | cons e rest ih => exact ih (twins.step e)

/-- At each point of a run at which the progress can be written, the session holds what a new deck over its store would
start with. Stored marks of mastery have no say in it, and the entries of strangers are kept in any case. -/
theorem run_persisted (cards : List Card) (ids : HasTextIds cards) (key : String) (m : Memory)
    (distinct : m.entries.Distinct)
    (readable : ∀ v, m.entries.get? key = some v → ∃ p, Progress.ofJson v = .ok p)
    (clock : Nat → Int) (events : List Event) :
    let s := (start cards key m clock).run events
    let reloaded := (s.step .reload).2
    (s.deck.progress.toJson.isWritable = true →
      (∀ v, s.store.entries.get? key = some v → Progress.ofJson v = .ok s.deck.progress) ∧
      (s.store.entries.get? key = none → s.deck.progress = []) ∧
      reloaded.deck.progress = s.deck.progress ∧
      reloaded.deck.mastered = s.deck.mastered) ∧
    (∀ id state, s.deck.progress.get? id = some state →
      (state.mastered = true ↔ 3 ≤ state.timesConfirmed)) ∧
    (∀ mark, ((start cards key (m.remarked mark key) clock).run events).deck = s.deck) ∧
    ∀ id, (∀ c ∈ cards, c.id.key ≠ id) →
      reloaded.deck.progress.get? id = s.deck.progress.get? id ∧
      (.restart ∉ events → reloaded.deck.progress.get? id = (Deck.opened cards m key).progress.get? id) := by
  intro s reloaded
  have first : (start cards key m clock).Persisted := .of_opened rfl ids distinct (Deck.exists_load readable)
  have held : s.Persisted := first.run events
  have sameKey : s.deck.key = key := run_key ..
  have sameCards : s.deck.cards = cards := run_cards ..
  have reopened : s.deck.progress.KeptAs s.deck.cards reloaded.deck.progress := held.progress_opened
  refine ⟨fun writable => ?_, fun _ _ found => (held.marked.get? found).mastered_iff, fun mark => ?_,
    fun id stranger => ?_⟩
  · obtain ⟨kept, loads, keeps⟩ := held.loads
    obtain rfl : kept = s.deck.progress := keeps.same writable
    rw [sameKey] at loads
    refine ⟨fun v stored => ?_, fun absent => ?_, reopened.same writable,
      congrArg Progress.masteredCount (reopened.same writable)⟩
    · exact (Deck.load_of_get? stored).symm.trans loads
    · exact Except.ok.inj (loads.symm.trans (Deck.load_of_absent absent))
  · exact ((Twins.start mark cards key distinct clock).run events).alike.deck
  · have kept := reopened.strangers id (sameCards ▸ stranger)
    exact ⟨kept, fun remembers => kept.trans (first.get?_run remembers stranger)⟩

def oddStore : Memory :=
  ⟨[("progress:o/r", .obj [
    ("a", .obj [("cardId", .str "b"), ("timesConfirmed", .int 2), ("mastered", .bool true)]),
    ("old", .obj [("mastered", .null), ("lastReviewedAt", .bool true), ("cardId", .str "old")])])]⟩

theorem odd_store_persisted :
    HasTextIds [Card.ofId "a"] ∧ oddStore.entries.Distinct ∧
    (∀ v, oddStore.entries.get? "progress:o/r" = some v → ∃ p, Progress.ofJson v = .ok p) ∧
    (((start [Card.ofId "a"] "progress:o/r" oddStore fun n => n).run
      [.review .confirm, .reload, .review .skip]).step .reload).2.deck.mastered = 1 := by
  have ids : HasTextIds [Card.ofId "a"] := hasTextIds_ofId ["a"]
  have distinct : oddStore.entries.Distinct := by unfold Assoc.Distinct; decide
  have readable : ∀ v, oddStore.entries.get? "progress:o/r" = some v →
      ∃ p, Progress.ofJson v = .ok p := by
    intro v stored
    injection stored with same
    rw [← same]
    exact ⟨_, rfl⟩
  have told := (run_persisted _ ids "progress:o/r" oddStore distinct readable (fun n => n)
    [.review .confirm, .reload, .review .skip]).1 (by decide +kernel)
  exact ⟨ids, distinct, readable, told.2.2.2.trans (by decide +kernel)⟩

def confirmedStore (n : Int) : Memory :=
  ⟨[("progress:o/r", .obj [("a", ReviewState.toJson ⟨.str "a", n, 3 ≤ n, 0⟩)])]⟩

def confirmedOnce (n : Int) : Session Memory :=
  (start [Card.ofId "a"] "progress:o/r" (confirmedStore n) fun n => n).run [.review .confirm]

theorem confirmedOnce_eq (n : Int) : confirmedOnce n =
    (start [Card.ofId "a"] "progress:o/r" (confirmedStore n) fun n => n).recorded .confirm (Card.ofId "a") := by
  have shown : (start [Card.ofId "a"] "progress:o/r" (confirmedStore n) fun n => n).deck.current =
      some (Card.ofId "a") := by
    refine Deck.current_of_single rfl Json.Key.noConfusion ?_
    exact Option.some_ne_none (α := ReviewState) ⟨.str "a", n, 3 ≤ n, 0⟩
  rw [confirmedOnce, run_cons, step, review_recorded shown Action.noConfusion]
  rfl

section Confirmed

variable (n : Int)

theorem load_confirmedStore :
    Deck.load (confirmedStore n) "progress:o/r" = .ok [(.text "a", ⟨.str "a", n, 3 ≤ n, 0⟩)] := rfl

theorem progress_confirmedOnce :
    (confirmedOnce n).deck.progress = [(.text "a", ⟨.str "a", n + 1, 3 ≤ n + 1, 0⟩)] := by
  rw [confirmedOnce_eq]
  rfl

variable {n} (large : Number.fitsDigits Number.maxDigits (n + 1).natAbs = false)

include large

theorem isWritable_confirmedOnce : (confirmedOnce n).deck.progress.toJson.isWritable = false := by
  have entry : (confirmedOnce n).deck.progress.toJson =
      .obj [("a", ReviewState.toJson ⟨.str "a", n + 1, 3 ≤ n + 1, 0⟩)] := by
    rw [progress_confirmedOnce]
    rfl
  rw [entry]
  simp [ReviewState.toJson, Json.isWritable, Json.allWhole, Json.allWholeFields, large]

theorem load_confirmedOnce :
    Deck.load (confirmedOnce n).store (confirmedOnce n).deck.key = .ok [(.text "a", ⟨.str "a", n, 3 ≤ n, 0⟩)] := by
  have unwritable := isWritable_confirmedOnce large
  rw [confirmedOnce_eq] at unwritable ⊢
  rcases Deck.saved_cases _ (confirmedStore n) with ⟨writable, _⟩ | ⟨_, after⟩
  · exact nomatch writable.symm.trans unwritable
  · exact (congrArg (Deck.load · "progress:o/r") after).trans (load_confirmedStore n)

theorem reload_confirmedOnce :
    ((confirmedOnce n).step .reload).2.deck.progress = [(.text "a", ⟨.str "a", n, 3 ≤ n, 0⟩)] := by
  simp only [step, Deck.opened, load_confirmedOnce large]

end Confirmed

/-- The greatest count that can be written is confirmed once more: the session and its store then differ by one. -/
theorem full_count_diverges :
    let n : Int := 10 ^ Number.maxDigits - 1
    let s := confirmedOnce n
    Deck.load (confirmedStore n) "progress:o/r" = .ok [(.text "a", ⟨.str "a", n, 3 ≤ n, 0⟩)] ∧
      s.deck.progress = [(.text "a", ⟨.str "a", n + 1, 3 ≤ n + 1, 0⟩)] ∧
      Deck.load s.store s.deck.key = .ok [(.text "a", ⟨.str "a", n, 3 ≤ n, 0⟩)] ∧
      (s.step .reload).2.deck.progress = [(.text "a", ⟨.str "a", n, 3 ≤ n, 0⟩)] := by
  intro n s
  have large : Number.fitsDigits Number.maxDigits (n + 1).natAbs = false := by
    rw [Bool.eq_false_iff, Ne, Number.fitsDigits_iff, (Json.natAbs_ten_pow Number.maxDigits).2]
    exact Nat.lt_irrefl _
  exact ⟨load_confirmedStore n, progress_confirmedOnce n, load_confirmedOnce large, reload_confirmedOnce large⟩

end Session

end CodeDeck
