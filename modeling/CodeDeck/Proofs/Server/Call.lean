import CodeDeck.Proofs.Review.Step
import CodeDeck.Proofs.Streak.Tally
import CodeDeck.Server

/-! What one call does to the server. A call that reaches a deck acts on it and on the table; it replaces
the deck of its own repository and leaves the others alone. -/

namespace CodeDeck

open CodeDeck.Text

def Action.ofInput (text : String) : Except Fault Action :=
  ofName (String.ofList (lower (trim text.toList)))

namespace Present

def report (headline : String) (news : List String) (d : Deck) : Except Fault String :=
  (current d).map fun upcoming => "\n\n".intercalate (headline :: news ++ [progress d, upcoming])

def headline (action : Action) (c : Card) : String := action.name ++ ": " ++ c.title.display

def congratulation (c : Card) : String := "Mastered " ++ c.title.display ++ "!"

end Present

theorem Streak.get?_recordSwipe_of_ne (store : Table) (mastered : Bool) (today : Date) {key : String}
    (different : key ≠ Key.streak) :
    (recordSwipe store mastered today).2.get? key = store.get? key :=
  Except.ok.inj (get?_update_of_ne store today _ different)

namespace Session

variable {σ : Type} [KeyValueStore σ]

def told (s : Session σ) (today : Date) : Session σ :=
  { s with
    store := (Streak.recordSwipe s.store s.deck.justMastered.isSome today).2
    deck := s.deck.clearMastered }

end Session

namespace Tool

/-- What each tool answers, and the session that it leaves. -/
inductive Answers (s : Session Table) (today : Date) :
    Tool → Except Fault String → Session Table → Prop
  | currentCard : Answers s today .currentCard (Present.current s.deck) s
  | progress : Answers s today .progress (.ok (Present.progress s.deck)) s
  | restart :
      Answers s today .restart
        (.ok ("Progress cleared. " ++ toString s.deck.total ++ " cards to review."))
        (s.step .restart).2
  | unknown {text : String} {fault : Fault} (named : Action.ofInput text = .error fault) :
      Answers s today (.review text) (.ok ("Error: " ++ fault.message)) s
  | closed {text : String} {action : Action} (named : Action.ofInput text = .ok action)
      (shut : s.deck.hasQueue = false) : Answers s today (.review text) (.error .wrongType) s
  | idle {text : String} {action : Action} (named : Action.ofInput text = .ok action)
      (inOrder : s.deck.hasQueue = true) (done : s.deck.current = none) :
      Answers s today (.review text) (.ok Present.emptyQueue) s
  | skip {text : String} {c : Card} (named : Action.ofInput text = .ok .skip)
      (inOrder : s.deck.hasQueue = true) (shown : s.deck.current = some c) :
      Answers s today (.review text)
        (Present.report (Present.headline .skip c) [] (s.skipped c).deck) (s.skipped c)
  | act {text : String} {action : Action} {c : Card} (named : Action.ofInput text = .ok action)
      (inOrder : s.deck.hasQueue = true) (shown : s.deck.current = some c)
      (acts : action ≠ .skip) :
      Answers s today (.review text)
        (Present.report (Present.headline action c)
          (((s.recorded action c).deck.justMastered.map Present.congratulation).toList)
          ((s.recorded action c).told today).deck)
        ((s.recorded action c).told today)

theorem Answers.eq_answer {s left : Session Table} {today : Date} {tool : Tool}
    {reply : Except Fault String} (answers : Answers s today tool reply left) :
    tool.answer s today = (reply, left) := by
  have opened (text : String) :
      Action.ofName (String.ofList (lower (trim text.toList))) = Action.ofInput text := rfl
  cases answers with
  | currentCard => rfl
  | progress => rfl
  | restart => rfl
  | unknown named => simp only [answer, Present.review, opened, named]
  | closed named shut => simp only [answer, Present.review, opened, named, shut]
  | idle named inOrder done =>
    simp only [answer, Present.review, opened, named, inOrder, Session.review_of_empty _ done]
  | skip named inOrder shown =>
    simp only [answer, Present.review, opened, named, inOrder, Session.review_skip shown, if_true]
    rfl
  | @act text action c named inOrder shown acts =>
    simp only [answer, Present.review, opened, named, inOrder, Session.review_recorded shown acts,
      if_neg acts]
    cases news : (s.recorded action c).deck.justMastered with
    | none =>
      simp only [Session.told, news]
      rfl
    | some m =>
      simp only [Session.told, news]
      rfl

theorem exists_answers (tool : Tool) (s : Session Table) (today : Date) :
    ∃ reply left, Answers s today tool reply left := by
  cases tool with
  | currentCard => exact ⟨_, _, .currentCard⟩
  | progress => exact ⟨_, _, .progress⟩
  | restart => exact ⟨_, _, .restart⟩
  | review text =>
    cases named : Action.ofInput text with
    | error fault => exact ⟨_, _, .unknown named⟩
    | ok action =>
      cases inOrder : s.deck.hasQueue with
      | false => exact ⟨_, _, .closed named inOrder⟩
      | true =>
        cases shown : s.deck.current with
        | none => exact ⟨_, _, .idle named inOrder shown⟩
        | some c =>
          by_cases skips : action = .skip
          · subst skips
            exact ⟨_, _, .skip named inOrder shown⟩
          · exact ⟨_, _, .act named inOrder shown skips⟩

theorem answers_answer (tool : Tool) (s : Session Table) (today : Date) :
    Answers s today tool (tool.answer s today).1 (tool.answer s today).2 := by
  obtain ⟨reply, left, answers⟩ := exists_answers tool s today
  rw [answers.eq_answer]
  exact answers

/-- Every tool leaves the cards of the deck, and all values of the table but the progress of the deck and
the streak. -/
theorem Answers.frame {s t : Session Table} {today : Date} {tool : Tool}
    {reply : Except Fault String} (answers : Answers s today tool reply t) :
    t.deck.cards = s.deck.cards ∧ t.deck.key = s.deck.key ∧
      (s.deck.justMastered = none → t.deck.justMastered = none) ∧
      ∀ key, key ≠ s.deck.key → key ≠ Key.streak → t.store.get? key = s.store.get? key := by
  cases answers with
  | currentCard => exact ⟨rfl, rfl, id, fun _ _ _ => rfl⟩
  | progress => exact ⟨rfl, rfl, id, fun _ _ _ => rfl⟩
  | restart => exact ⟨rfl, rfl, fun _ => rfl, fun key other _ => Assoc.get?_erase_of_ne other _⟩
  | unknown => exact ⟨rfl, rfl, id, fun _ _ _ => rfl⟩
  | closed => exact ⟨rfl, rfl, id, fun _ _ _ => rfl⟩
  | idle => exact ⟨rfl, rfl, id, fun _ _ _ => rfl⟩
  | skip => exact ⟨rfl, rfl, id, fun _ _ _ => rfl⟩
  | @act _ action c =>
    refine ⟨rfl, rfl, fun _ => rfl, fun key other different => ?_⟩
    have counted := Streak.get?_recordSwipe_of_ne (s.recorded action c).store
      (s.recorded action c).deck.justMastered.isSome today different
    exact counted.trans (Except.ok.inj (ReliableStore.get?_set_of_ne s.store other _))

theorem Answers.marked {s t : Session Table} {today : Date} {tool : Tool} {reply : Except Fault String}
    (answers : Answers s today tool reply t) (marked : s.deck.progress.Marked) : t.deck.progress.Marked := by
  cases answers with
  | restart => exact fun _ member => absurd member List.not_mem_nil
  | act => exact marked.set _ (Progress.marked_reviewed ..)
  | _ => exact marked

end Tool

def Call.address? (c : Call) : Option String :=
  match RepoName.ofText c.repo with
  | .ok name => some (lowerString name.fullName)
  | .error _ => none

theorem Call.address?_eq_some_iff {c : Call} {name : String} :
    c.address? = some name ↔ ∃ parsed, RepoName.ofText c.repo = .ok parsed ∧
      lowerString parsed.fullName = name := by
  unfold address?
  cases RepoName.ofText c.repo with
  | error fault => simp
  | ok parsed => simp

namespace Server

def session (s : Server) (deck : Deck) (m : Moment) : Session Table :=
  { deck := deck, store := s.table, clock := fun _ => m.now }

def updated (s : Server) (name : String) (session : Session Table) : Server :=
  { s with decks := s.decks.set name session.deck, table := session.store }

theorem deck?_cases {s : Server} {name : String} {d : Deck} (found : s.deck? name = .ok (some d)) :
    s.decks.get? name = some d ∨ s.decks.get? name = none ∧
      ∃ cards, Ingest.loadCards s.table name = .ok cards ∧
        Deck.opened cards s.table (Key.progress name) = d := by
  unfold deck? at found
  cases held : s.decks.get? name with
  | some known =>
    simp only [held, Except.ok.injEq] at found
    exact .inl found
  | none =>
    rw [held] at found
    dsimp only at found
    cases loaded : Ingest.loadCards s.table name with
    | error fault => simp [loaded, Except.map] at found
    | ok cards =>
      simp only [loaded, Except.map, Except.ok.injEq, Option.ite_none_left_eq_some,
        Option.some.injEq] at found
      exact .inr ⟨rfl, cards, rfl, found.2⟩

theorem deck?_updated (s : Server) (name : String) (left : Session Table) :
    (s.updated name left).deck? name = .ok (some left.deck) := by
  simp [deck?, updated]

inductive Answers (s : Server) (c : Call) (m : Moment) : Except Fault String → Server → Prop
  | unclear {fault : Fault} (unread : RepoName.ofText c.repo = .error fault) :
      Answers s c m (.ok ("Error: " ++ fault.message)) s
  | broken {name : String} {fault : Fault} (read : c.address? = some name)
      (fails : s.deck? name = .error fault) : Answers s c m (.error fault) s
  | empty {name : String} (read : c.address? = some name) (nothing : s.deck? name = .ok none) :
      Answers s c m (.ok (notIngested c.repo)) s
  | reached {name : String} {deck : Deck} {reply : Except Fault String} {left : Session Table}
      (read : c.address? = some name) (found : s.deck? name = .ok (some deck))
      (answers : Tool.Answers (s.session deck m) m.today c.tool reply left) :
      Answers s c m reply (s.updated name left)

theorem Answers.eq_call {s left : Server} {c : Call} {m : Moment} {reply : Except Fault String}
    (answers : Answers s c m reply left) : s.call c m = (reply, left) := by
  unfold call
  cases answers with
  | unclear unread => rw [unread]
  | @broken name fault read fails =>
    obtain ⟨parsed, named, rfl⟩ := Call.address?_eq_some_iff.1 read
    simp only [named, fails]
  | @empty name read nothing =>
    obtain ⟨parsed, named, rfl⟩ := Call.address?_eq_some_iff.1 read
    simp only [named, nothing]
  | @reached name d reply session read found answers =>
    obtain ⟨parsed, named, rfl⟩ := Call.address?_eq_some_iff.1 read
    simp only [named, found]
    have answered : c.tool.answer { deck := d, store := s.table, clock := fun _ => m.now } m.today =
      (reply, session) := answers.eq_answer
    rw [answered]
    rfl

theorem exists_answers (s : Server) (c : Call) (m : Moment) : ∃ reply left, Answers s c m reply left := by
  cases named : RepoName.ofText c.repo with
  | error fault => exact ⟨_, _, .unclear named⟩
  | ok name =>
    have read := Call.address?_eq_some_iff.2 ⟨name, named, rfl⟩
    cases found : s.deck? (lowerString name.fullName) with
    | error fault => exact ⟨_, _, .broken read found⟩
    | ok deck? =>
      cases deck? with
      | none => exact ⟨_, _, .empty read found⟩
      | some deck => exact ⟨_, _, .reached read found (Tool.answers_answer ..)⟩

theorem answers_call (s : Server) (c : Call) (m : Moment) :
    Answers s c m (s.call c m).1 (s.call c m).2 := by
  obtain ⟨reply, left, answers⟩ := exists_answers s c m
  rw [answers.eq_call]
  exact answers

def run (s : Server) (calls : List (Call × Moment)) : Server :=
  calls.foldl (fun s x => (s.call x.1 x.2).2) s

theorem run_cons (s : Server) (x : Call × Moment) (rest : List (Call × Moment)) :
    s.run (x :: rest) = (s.call x.1 x.2).2.run rest := rfl

end Server

end CodeDeck
