import CodeDeck.Proofs.Ingest.Stored
import CodeDeck.Proofs.Server.Call
import CodeDeck.Proofs.Text.Lowercase

/-! Isolation between repositories. Two servers agree on a repository when they find the same deck for it
and hold its values; calls for others, and calls that only look, keep a server in agreement with itself,
and the same call for the repository keeps two servers in agreement. -/

namespace CodeDeck

open CodeDeck.Text

/-- A repository goes by its name in lower case, which a key leaves as it is. -/
def IsAddress (name : String) : Prop := lowerString name = name

theorem isAddress_of_address? {c : Call} {name : String} (read : c.address? = some name) :
    IsAddress name := by
  obtain ⟨parsed, _, rfl⟩ := Call.address?_eq_some_iff.1 read
  exact lowerString_lowerString _

theorem Key.progress_ne {name other : String} (address : IsAddress name) (address' : IsAddress other)
    (different : name ≠ other) : progress name ≠ progress other := fun same =>
  different (by rw [← address, ← address', progress_inj same])

/-- Does the call leave the deck that it reaches as it is, whatever that deck is? -/
def Call.looks (c : Call) : Bool :=
  match c.tool with
  | .currentCard => true
  | .progress => true
  | .review text => !(Action.ofInput text).toBool
  | .restart => false

theorem Tool.Answers.left_of_looks {s left : Session Table} {today : Date} {c : Call}
    {reply : Except Fault String} (answers : Answers s today c.tool reply left)
    (looks : c.looks = true) : left = s := by
  obtain ⟨tool, repo⟩ := c
  cases answers with
  | currentCard => rfl
  | progress => rfl
  | unknown named => rfl
  | closed named shut => rfl
  | idle named inOrder done => rfl
  | restart => simp [Call.looks] at looks
  | skip named inOrder shown => simp [Call.looks, named, Except.toBool] at looks
  | act named inOrder shown acts => simp [Call.looks, named, Except.toBool] at looks

/-- Two sessions with the same deck, over tables that hold the same progress of it, get the same answer
and go on in the same way. -/
theorem Tool.Answers.transfer {s t left : Session Table} {today : Date} {tool : Tool}
    {reply : Except Fault String} (answers : Answers s today tool reply left)
    (alike : Session.Alike s t) (sorted : s.store.Sorted) (sorted' : t.store.Sorted)
    (own : s.deck.key ≠ Key.streak) (same : s.store.get? s.deck.key = t.store.get? s.deck.key) :
    ∃ left', Answers t today tool reply left' ∧ left'.deck = left.deck ∧
      left'.store.get? s.deck.key = left.store.get? s.deck.key := by
  obtain ⟨deck, table, clock, readings⟩ := s
  obtain ⟨deck', table', clock', readings'⟩ := t
  obtain ⟨rfl, rfl, rfl⟩ := alike
  cases answers with
  | currentCard => exact ⟨_, .currentCard, rfl, same.symm⟩
  | progress => exact ⟨_, .progress, rfl, same.symm⟩
  | restart =>
    refine ⟨_, .restart, rfl, ?_⟩
    exact (Table.get?_delete_self sorted' deck.key).trans (Table.get?_delete_self sorted deck.key).symm
  | unknown named => exact ⟨_, .unknown named, rfl, same.symm⟩
  | closed named shut => exact ⟨_, .closed named shut, rfl, same.symm⟩
  | idle named inOrder done => exact ⟨_, .idle named inOrder done, rfl, same.symm⟩
  | skip named inOrder shown => exact ⟨_, .skip named inOrder shown, rfl, same.symm⟩
  | @act text action c named inOrder shown acts =>
    refine ⟨_, .act named inOrder shown acts, rfl, ?_⟩
    simp only [Session.told, Streak.get?_recordSwipe_of_ne _ _ _ own]
    exact Table.get?_set_congr same.symm _

theorem Streak.sorted_recordSwipe {table : Table} (sorted : table.Sorted) (mastered : Bool)
    (today : Date) : (recordSwipe table mastered today).2.Sorted := by
  unfold recordSwipe update
  split
  · exact sorted
  · next s _ =>
    have written := Table.sorted_written sorted Key.streak s.toJson
    split <;> next after => rwa [after] at written

theorem Tool.Answers.sorted {s left : Session Table} {today : Date} {tool : Tool}
    {reply : Except Fault String} (answers : Answers s today tool reply left)
    (sorted : s.store.Sorted) : left.store.Sorted := by
  cases answers with
  | currentCard => exact sorted
  | progress => exact sorted
  | restart => exact Table.sorted_delete sorted _
  | unknown named => exact sorted
  | closed named shut => exact sorted
  | idle named inOrder done => exact sorted
  | skip named inOrder shown => exact sorted
  | act named inOrder shown acts =>
    exact Streak.sorted_recordSwipe (Table.sorted_written sorted ..) ..

theorem Deck.opened_congr {table other : Table} {key : String}
    (same : table.get? key = other.get? key) (cards : List Card) :
    opened cards table key = opened cards other key := by
  simp only [opened, load, KeyValueStore.read, KeyValueStore.get?, same]

namespace Server

structure Regular (s : Server) : Prop where
  keyed : ∀ name d, s.decks.get? name = some d → d.key = Key.progress name
  sorted : s.table.Sorted

theorem Regular.key {s : Server} (regular : s.Regular) {name : String} {d : Deck}
    (found : s.deck? name = .ok (some d)) : d.key = Key.progress name := by
  rcases deck?_cases found with held | ⟨_, cards, _, rfl⟩
  · exact regular.keyed name d held
  · rfl

theorem Answers.regular {s left : Server} {c : Call} {m : Moment} {reply : Except Fault String}
    (answers : Answers s c m reply left) (regular : s.Regular) : left.Regular := by
  cases answers with
  | unclear unread => exact regular
  | broken read fails => exact regular
  | empty read nothing => exact regular
  | @reached name d reply session read found answers =>
    refine ⟨fun other known held => ?_, answers.sorted regular.sorted⟩
    by_cases same : other = name
    · subst same
      have set : session.deck = known := by simpa [updated] using held
      exact set ▸ answers.frame.2.1.trans (regular.key found)
    · exact regular.keyed other known ((Assoc.get?_set_of_ne same ..).symm.trans held)

theorem deck?_congr {s t : Server} {name : String} (decks : s.decks.get? name = t.decks.get? name)
    (cards : s.table.get? (Key.cards name) = t.table.get? (Key.cards name))
    (progress : s.table.get? (Key.progress name) = t.table.get? (Key.progress name)) :
    s.deck? name = t.deck? name := by
  simp only [deck?, decks, Ingest.loadCards_congr cards, Deck.opened_congr progress]

/-- Two servers agree on the repository of the name. One of them may have its deck in memory and the other
not yet, as long as it would open the same one. -/
structure Agree (name : String) (s t : Server) : Prop where
  deck : s.deck? name = t.deck? name
  cards : s.table.get? (Key.cards name) = t.table.get? (Key.cards name)
  progress : s.table.get? (Key.progress name) = t.table.get? (Key.progress name)

theorem agree_refl (name : String) (s : Server) : Agree name s s := ⟨rfl, rfl, rfl⟩

theorem Agree.trans {name : String} {s t u : Server} (first : Agree name s t)
    (second : Agree name t u) : Agree name s u :=
  ⟨first.deck.trans second.deck, first.cards.trans second.cards,
    first.progress.trans second.progress⟩

theorem Agree.symm {name : String} {s t : Server} (agree : Agree name s t) : Agree name t s :=
  ⟨agree.deck.symm, agree.cards.symm, agree.progress.symm⟩

section Calls

variable {name : String} {s t left : Server} {c : Call} {m : Moment} {reply : Except Fault String}

theorem Answers.agree_of_other (answers : Answers s c m reply left) (regular : s.Regular)
    (address : IsAddress name) (other : c.address? ≠ some name) : Agree name left s := by
  cases answers with
  | unclear unread => exact agree_refl name s
  | broken read fails => exact agree_refl name s
  | empty read nothing => exact agree_refl name s
  | @reached addressee d reply session read found answers =>
    have different : name ≠ addressee := fun same => other (same ▸ read)
    obtain ⟨_, _, _, others⟩ := answers.frame
    have key : d.key = Key.progress addressee := regular.key found
    have cards : session.store.get? (Key.cards name) = s.table.get? (Key.cards name) :=
      others _ (key ▸ Key.cards_ne_progress name addressee) (Key.cards_ne_streak name)
    have progress : session.store.get? (Key.progress name) = s.table.get? (Key.progress name) :=
      others _ (key ▸ Key.progress_ne address (isAddress_of_address? read) different)
        (Key.progress_ne_streak name)
    exact ⟨deck?_congr (Assoc.get?_set_of_ne different ..) cards progress, cards, progress⟩

/-- A call that only looks may bring a deck into memory, which is the deck that was found before. -/
theorem Answers.agree_of_looks (answers : Answers s c m reply left) (looks : c.looks = true)
    (name : String) : Agree name left s := by
  cases answers with
  | unclear unread => exact agree_refl name s
  | broken read fails => exact agree_refl name s
  | empty read nothing => exact agree_refl name s
  | @reached addressee d reply session read found answers =>
    obtain rfl := answers.left_of_looks looks
    refine ⟨?_, rfl, rfl⟩
    by_cases same : name = addressee
    · subst same
      exact (deck?_updated ..).trans found.symm
    · exact deck?_congr (Assoc.get?_set_of_ne same ..) rfl rfl

theorem Answers.transfer (answers : Answers s c m reply left) (agree : Agree name s t)
    (regular : s.Regular) (regular' : t.Regular) (read : c.address? = some name) :
    ∃ left', Answers t c m reply left' ∧ Agree name left left' := by
  cases answers with
  | unclear unread => simp [Call.address?, unread] at read
  | @broken addressee fault read' fails =>
    obtain rfl : name = addressee := Option.some.inj (read.symm.trans read')
    exact ⟨t, .broken read (agree.deck.symm.trans fails), agree⟩
  | @empty addressee read' nothing =>
    obtain rfl : name = addressee := Option.some.inj (read.symm.trans read')
    exact ⟨t, .empty read (agree.deck.symm.trans nothing), agree⟩
  | @reached addressee d reply session read' found answers =>
    obtain rfl : name = addressee := Option.some.inj (read.symm.trans read')
    have key : d.key = Key.progress name := regular.key found
    have own : d.key ≠ Key.streak := key ▸ Key.progress_ne_streak name
    have values : s.table.get? d.key = t.table.get? d.key := key ▸ agree.progress
    obtain ⟨session', answers', deck, progress⟩ :=
      answers.transfer (t := t.session d m) ⟨rfl, rfl, rfl⟩ regular.sorted regular'.sorted own values
    refine ⟨t.updated name session', .reached read (agree.deck.symm.trans found) answers', ?_⟩
    have apart : Key.cards name ≠ d.key := key ▸ Key.cards_ne_progress name name
    have cards : session.store.get? (Key.cards name) = s.table.get? (Key.cards name) :=
      answers.frame.2.2.2 _ apart (Key.cards_ne_streak name)
    have cards' : session'.store.get? (Key.cards name) = t.table.get? (Key.cards name) :=
      answers'.frame.2.2.2 _ apart (Key.cards_ne_streak name)
    refine ⟨?_, cards.trans (agree.cards.trans cards'.symm), ?_⟩
    · rw [deck?_updated, deck?_updated, deck]
    · exact key ▸ progress.symm

end Calls

/-- Calls with their moments, each with a mark whether it is made in both runs. -/
abbrev Script := List (Bool × Call × Moment)

namespace Script

def whole (calls : Script) : List (Call × Moment) := calls.map (·.2)

def thinned (calls : Script) : Script := calls.filter (·.1)

theorem whole_cons (x : Bool × Call × Moment) (rest : Script) :
    whole (x :: rest) = x.2 :: whole rest := rfl

theorem thinned_cons_kept (x : Call × Moment) (rest : Script) :
    thinned ((true, x) :: rest) = (true, x) :: thinned rest := rfl

theorem thinned_cons_left_out (x : Call × Moment) (rest : Script) :
    thinned ((false, x) :: rest) = thinned rest := rfl

end Script

def repliesTo (name : String) (s : Server) : Script → List (Except Fault String)
  | [] => []
  | (kept, c, m) :: rest =>
    let others := repliesTo name (s.call c m).2 rest
    if kept ∧ c.address? = some name then (s.call c m).1 :: others else others

theorem Agree.run {name : String} {s t : Server} (agree : Agree name s t) (regular : s.Regular)
    (regular' : t.Regular) (address : IsAddress name) {calls : Script}
    (removable : ∀ x ∈ calls, x.1 = false → x.2.1.address? ≠ some name ∨ x.2.1.looks = true) :
    s.repliesTo name calls = t.repliesTo name calls.thinned ∧
      Agree name (s.run calls.whole) (t.run calls.thinned.whole) := by
  -- `s` takes every call and `t` only those that are kept; `Agree` relates them after each call of the whole script.
  induction calls generalizing s t with
  | nil => exact ⟨rfl, agree⟩
  | cons entry rest ih =>
    obtain ⟨kept, c, m⟩ := entry
    have later := fun x member => removable x (List.mem_cons_of_mem _ member)
    have answers := s.answers_call c m
    have regularAfter := answers.regular regular
    cases kept with
    | false =>
      have idle : Agree name (s.call c m).2 s := by
        rcases removable _ List.mem_cons_self rfl with other | looks
        · exact answers.agree_of_other regular address other
        · exact answers.agree_of_looks looks name
      obtain ⟨replies, agreeLast⟩ := ih (idle.trans agree) regularAfter regular' later
      rw [Script.whole_cons, Script.thinned_cons_left_out, run_cons]
      refine ⟨?_, agreeLast⟩
      rw [repliesTo, if_neg (by simp), replies]
    | true =>
      have answers' := t.answers_call c m
      have regularAfter' := answers'.regular regular'
      rw [Script.whole_cons, Script.thinned_cons_kept, Script.whole_cons, run_cons, run_cons]
      by_cases read : c.address? = some name
      · obtain ⟨left', transferred, agreeAfter⟩ := answers.transfer agree regular regular' read
        have called : t.call c m = ((s.call c m).1, left') := transferred.eq_call
        have sameReply : (t.call c m).1 = (s.call c m).1 := by rw [called]
        obtain rfl : (t.call c m).2 = left' := by rw [called]
        obtain ⟨replies, agreeLast⟩ := ih agreeAfter regularAfter regularAfter' later
        refine ⟨?_, agreeLast⟩
        rw [repliesTo, repliesTo, if_pos ⟨rfl, read⟩, if_pos ⟨rfl, read⟩, replies, sameReply]
      · have agreeAfter : Agree name (s.call c m).2 (t.call c m).2 :=
          (answers.agree_of_other regular address read).trans
            (agree.trans (answers'.agree_of_other regular' address read).symm)
        obtain ⟨replies, agreeLast⟩ := ih agreeAfter regularAfter regularAfter' later
        refine ⟨?_, agreeLast⟩
        rw [repliesTo, repliesTo, if_neg fun both => read both.2, if_neg fun both => read both.2,
          replies]

/-- From any database on, calls that are not for a repository, or that only look, can be left out of a run:
the replies to the other calls for the repository stay the same, and so do its cards and its progress. -/
theorem run_isolated (server : Json) (rows : List (String × Json)) (fullName : String) (calls : Script)
    (removable : ∀ x ∈ calls, x.1 = false →
      x.2.1.address? ≠ some (lowerString fullName) ∨ x.2.1.looks = true) :
    let name := lowerString fullName
    let s : Server := { name := server, table := Table.ofRows rows }
    s.repliesTo name calls = s.repliesTo name calls.thinned ∧
      (s.run calls.whole).table.get? (Key.cards name) =
        (s.run calls.thinned.whole).table.get? (Key.cards name) ∧
      (s.run calls.whole).table.get? (Key.progress name) =
        (s.run calls.thinned.whole).table.get? (Key.progress name) := by
  intro name s
  have regular : s.Regular := {
    keyed := fun _ _ held => absurd held (by simp [s])
    sorted := Table.sorted_ofRows rows }
  obtain ⟨replies, agree⟩ := (agree_refl name s).run regular regular (lowerString_lowerString fullName)
    removable
  exact ⟨replies, agree.cards, agree.progress⟩

def twoDecks : List (String × Json) :=
  [(Key.cards "o/r", .arr [(Card.ofId "f").toJson]), (Key.cards "a/b", .arr [(Card.ofId "g").toJson])]

def mixedScript : Script :=
  [(false, ⟨.currentCard, "o/r"⟩, ⟨1, ⟨2024, 3, 1⟩⟩), (true, ⟨.review "confirm", "O/R"⟩, ⟨2, ⟨2024, 3, 1⟩⟩),
    (false, ⟨.review "confirm", "a/b"⟩, ⟨3, ⟨2024, 3, 1⟩⟩),
    (false, ⟨.review "maybe", "o/r"⟩, ⟨4, ⟨2024, 3, 1⟩⟩), (false, ⟨.restart, "o"⟩, ⟨5, ⟨2024, 3, 1⟩⟩),
    (true, ⟨.review "reject", "o/r"⟩, ⟨6, ⟨2024, 3, 2⟩⟩)]

theorem mixed_script_isolated :
    let s : Server := { name := .str "repocards", table := Table.ofRows twoDecks }
    (∀ x ∈ mixedScript, x.1 = false →
      x.2.1.address? ≠ some (lowerString "O/r") ∨ x.2.1.looks = true) ∧
    mixedScript.thinned.length = 2 ∧
    s.repliesTo (lowerString "O/r") mixedScript =
      s.repliesTo (lowerString "O/r") mixedScript.thinned ∧
    (s.run mixedScript.whole).table.get? (Key.progress (lowerString "O/r")) =
      (s.run mixedScript.thinned.whole).table.get? (Key.progress (lowerString "O/r")) := by
  have removable : ∀ x ∈ mixedScript, x.1 = false →
      x.2.1.address? ≠ some (lowerString "O/r") ∨ x.2.1.looks = true := by decide +kernel
  have isolated := run_isolated (.str "repocards") twoDecks "O/r" mixedScript removable
  exact ⟨removable, rfl, isolated.1, isolated.2.2⟩

end Server

end CodeDeck
