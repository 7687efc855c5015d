import CodeDeck.Proofs.Ingest.Stored
import CodeDeck.Proofs.Review.Mastery
import CodeDeck.Proofs.Server.Call
import CodeDeck.Proofs.Streak.History
import CodeDeck.Proofs.Text.Paragraphs

/-! The books of the server. A deck that is at rest has no news to tell, so that a reply tells the news of
its own review only; the streak counts the reviews that act on a card and the news that are told. A reply that repeats
what the caller wrote tells no news unless there is an empty line in that. -/

namespace CodeDeck

open CodeDeck.Text

namespace Present

/-- The title of the card that a reply tells the mastery of, in its second paragraph. -/
def announced? (reply : List Char) : Option (List Char) :=
  match paragraphs reply with
  | _ :: news :: _ => between? "Mastered ".toList "!".toList news
  | _ => none

theorem announced?_of_isParagraph {reply : List Char} (one : IsParagraph reply) : announced? reply = none := by
  rw [announced?, paragraphs_of_isParagraph one]

theorem announced?_second {headline news : List Char} (single : '\n' ∉ headline) (line : '\n' ∉ news)
    (rest : List Char) :
    announced? (headline ++ '\n' :: '\n' :: (news ++ '\n' :: '\n' :: rest)) =
      between? "Mastered ".toList "!".toList news := by
  rw [announced?, paragraphs_append single, paragraphs_append line]

theorem notMem_progress {c : Char} (figure : c.isDigit = false)
    (other : c ∉ "All / cards mastered.".toList) (d : Deck) : c ∉ (progress d).toList := by
  have figures (n : Nat) : c ∉ Nat.toDigits 10 n := fun member => by
    have digit := Nat.isDigit_of_mem_toDigits (by decide) (by decide) member
    exact absurd (figure.symm.trans digit) (by decide)
  unfold progress
  split
  · simp [String.toList_append, figures] at other ⊢
    tauto
  · simp [String.toList_append, figures] at other ⊢
    tauto

theorem newline_notMem_headline {c : Card} (action : Action)
    (line : '\n' ∉ c.title.display.toList) : '\n' ∉ (headline action c).toList := by
  cases action <;> simpa [headline, Action.name, String.toList_append] using line

theorem newline_notMem_congratulation {c : Card} (line : '\n' ∉ c.title.display.toList) :
    '\n' ∉ (congratulation c).toList := by
  simpa [congratulation, String.toList_append] using line

variable {action : Action} {c : Card} {d : Deck} {reply : String}

theorem report_ok {headline : String} {news : List String} (told : report headline news d = .ok reply) :
    ∃ upcoming, reply = "\n\n".intercalate (headline :: news ++ [progress d, upcoming]) := by
  unfold report at told
  cases shown : current d with
  | error fault => simp [shown, Except.map] at told
  | ok upcoming =>
    rw [shown] at told
    exact ⟨upcoming, (Except.ok.inj told).symm⟩

theorem announced?_report (line : '\n' ∉ c.title.display.toList)
    (told : report (headline action c) [] d = .ok reply) : announced? reply.toList = none := by
  obtain ⟨upcoming, rfl⟩ := report_ok told
  have text : ("\n\n".intercalate [headline action c, progress d, upcoming]).toList =
      (headline action c).toList ++ '\n' :: '\n' ::
        ((progress d).toList ++ '\n' :: '\n' :: upcoming.toList) := by
    simp
  have second := announced?_second (newline_notMem_headline action line)
    (notMem_progress (by decide) (by decide) d) upcoming.toList
  exact (congrArg announced? text).trans
    (second.trans (between?_eq_none (notMem_progress (by decide) (by decide) d) _ _))

theorem announced?_report_news (line : '\n' ∉ c.title.display.toList)
    (told : report (headline action c) [congratulation c] d = .ok reply) :
    announced? reply.toList = some c.title.display.toList := by
  obtain ⟨upcoming, rfl⟩ := report_ok told
  have text : ("\n\n".intercalate [headline action c, congratulation c, progress d, upcoming]).toList =
      (headline action c).toList ++ '\n' :: '\n' ::
        ((congratulation c).toList ++ '\n' :: '\n' ::
          ((progress d).toList ++ '\n' :: '\n' :: upcoming.toList)) := by
    simp
  have second := announced?_second (newline_notMem_headline action line)
    (newline_notMem_congratulation line) ((progress d).toList ++ '\n' :: '\n' :: upcoming.toList)
  have news : (congratulation c).toList =
      "Mastered ".toList ++ c.title.display.toList ++ "!".toList := by
    simp [congratulation, String.toList_append]
  rw [news, between?_append] at second
  refine (congrArg announced? text).trans ?_
  rw [news]
  exact second

theorem current_ok (inOrder : d.hasQueue = true)
    (levels : ∀ c ∈ d.cards, ∃ n, c.difficulty = .int n) : ∃ upcoming, current d = .ok upcoming := by
  rw [current, if_pos inOrder]
  cases shown : d.current with
  | none => exact ⟨emptyQueue, rfl⟩
  | some c =>
    obtain ⟨n, whole⟩ := levels c (Deck.mem_cards_of_current shown)
    have label : ∃ name, difficultyLabel c.difficulty = .ok name := by
      rw [whole]
      unfold difficultyLabel
      split
      · exact ⟨_, rfl⟩
      · exact ⟨_, rfl⟩
      · exact ⟨_, rfl⟩
      · next unfit => simp [Json.key] at unfit
      · exact ⟨_, rfl⟩
    obtain ⟨name, label⟩ := label
    rw [cardOrNone, card, label]
    exact ⟨_, rfl⟩

end Present

namespace Deck

def confirmations (d : Deck) (c : Card) : Int :=
  ((d.progress.get? c.id.key).getD (.unseen c.id)).timesConfirmed

theorem confirmations_recorded (d : Deck) (action : Action) (c : Card) (now : Int) :
    (d.recorded action c now).confirmations c =
      if action = .confirm then d.confirmations c + 1 else 0 := by
  simp [confirmations, recorded, Progress.reviewed]

/-- A deck at rest: it stands under its own key, has no news to tell, and its cards can be shown. -/
structure Ready (d : Deck) (name : String) : Prop where
  key : d.key = Key.progress name
  quiet : d.justMastered = none
  marked : d.progress.Marked
  levels : ∀ c ∈ d.cards, ∃ n, c.difficulty = .int n
  lines : ∀ c ∈ d.cards, '\n' ∉ c.title.display.toList

theorem Ready.recorded_justMastered {d : Deck} {name : String} (ready : d.Ready name) (action : Action)
    (c : Card) (now : Int) :
    (d.recorded action c now).justMastered =
      if action = .confirm ∧ d.confirmations c = 2 then some c else none := by
  have masters : (d.progress.apply action c.id now).2 = true ↔
      action = .confirm ∧ d.confirmations c = 2 :=
    Progress.apply_masters_iff ready.marked action c.id now
  rw [recorded, ready.quiet]
  exact if_congr masters rfl rfl

end Deck

namespace Tool

def acts? (tool : Tool) (d : Deck) : Option (Action × Card) :=
  match tool with
  | .review text =>
    match Action.ofInput text, d.hasQueue with
    | .ok action, true => d.current.map fun c => (action, c)
    | _, _ => none
  | _ => none

def counts (tool : Tool) (d : Deck) : Bool := (tool.acts? d).any fun (action, _) => action != .skip

def masters? (tool : Tool) (before after : Deck) : Option Card :=
  match tool.acts? before with
  | some (.confirm, c) =>
    if before.confirmations c = 2 ∧ after.confirmations c = 3 then some c else none
  | _ => none

def announces? (tool : Tool) (reply : Except Fault String) : Option String :=
  match tool, reply with
  | .review _, .ok text => (Present.announced? text.toList).map String.ofList
  | _, _ => none

def isReview : Tool → Bool
  | .review _ => true
  | _ => false

theorem announces?_of_isParagraph (tool : Tool) {reply : String}
    (one : tool.isReview = true → IsParagraph reply.toList) : tool.announces? (.ok reply) = none := by
  cases tool with
  | review text =>
    rw [announces?, Present.announced?_of_isParagraph (one rfl)]
    rfl
  | _ => rfl

theorem isParagraph_of_ofInput {text : String} {fault : Fault} (named : Action.ofInput text = .error fault) :
    IsParagraph ("Error: " ++ fault.message).toList := by
  unfold Action.ofInput Action.ofName at named
  split at named
  · exact nomatch named
  · exact nomatch named
  · exact nomatch named
  · obtain rfl := Except.error.inj named
    rw [String.toList_append]
    refine IsParagraph.prepend ?_ (by decide)
    change IsParagraph (quotedString _ ++ " is not a valid ReviewAction").toList
    rw [String.toList_append, quotedString, String.toList_ofList]
    exact (isParagraph_of_notMem (newline_notMem_quoted _)).append (by decide) (by decide)

structure Booked (tool : Tool) (before after : Deck) (reply : Except Fault String)
    (t u : Streak.Tally) : Prop where
  announces : tool.announces? reply = (tool.masters? before after).map (·.title.display)
  swipes : u.swipes = t.swipes + if tool.counts before then 1 else 0
  masteries : u.masteries = t.masteries + if (tool.announces? reply).isSome then 1 else 0

theorem booked_idle {tool : Tool} {before after : Deck} {reply : Except Fault String}
    (silent : tool.announces? reply = none) (rests : tool.counts before = false) (t : Streak.Tally) :
    Booked tool before after reply t t where
  announces := by
    unfold masters?
    split
    · next c confirms => simp [counts, confirms] at rests
    · exact silent
  swipes := by simp [rests]
  masteries := by simp [silent]

section Sessions

variable {s left : Session Table} {today : Date} {tool : Tool} {reply : Except Fault String}
  {t : Streak.Tally} {name : String}

theorem acts?_review {text : String} {action : Action} {d : Deck}
    (named : Action.ofInput text = .ok action) (inOrder : d.hasQueue = true) :
    acts? (.review text) d = d.current.map fun c => (action, c) := by
  simp only [acts?, named, inOrder]

section Acting

variable {text : String} {action : Action} {c : Card} (ready : s.deck.Ready name)
  (shown : s.deck.current = some c)

include ready shown

/-- A deck at rest has news of the card that is acted on, or none. The cards stay as they are, so that
the reply always comes to an end. -/
theorem announces?_recorded (text : String) (action : Action) (today : Date)
    (inOrder : s.deck.hasQueue = true) :
    announces? (.review text)
        (Present.report (Present.headline action c)
          (((s.recorded action c).deck.justMastered.map Present.congratulation).toList)
          ((s.recorded action c).told today).deck) =
      (s.recorded action c).deck.justMastered.map (·.title.display) := by
  have line := ready.lines c (Deck.mem_cards_of_current shown)
  have news : (s.recorded action c).deck.justMastered =
      if action = .confirm ∧ s.deck.confirmations c = 2 then some c else none :=
    ready.recorded_justMastered ..
  obtain ⟨upcoming, next⟩ : ∃ upcoming,
      Present.current ((s.recorded action c).told today).deck = .ok upcoming :=
    Present.current_ok inOrder ready.levels
  obtain ⟨reply, told⟩ : ∃ reply, Present.report (Present.headline action c)
      (((s.recorded action c).deck.justMastered.map Present.congratulation).toList)
      ((s.recorded action c).told today).deck = .ok reply := by
    rw [Present.report, next]
    exact ⟨_, rfl⟩
  rw [told]
  by_cases masters : action = .confirm ∧ s.deck.confirmations c = 2
  · rw [if_pos masters] at news
    rw [news] at told ⊢
    simp [announces?, Present.announced?_report_news line told]
  · rw [if_neg masters] at news
    rw [news] at told ⊢
    simp [announces?, Present.announced?_report line told]

theorem masters?_recorded (named : Action.ofInput text = .ok action)
    (inOrder : s.deck.hasQueue = true) :
    masters? (.review text) s.deck ((s.recorded action c).told today).deck =
      (s.recorded action c).deck.justMastered := by
  have acted : acts? (.review text) s.deck = some (action, c) := by
    rw [acts?_review named inOrder, shown]
    rfl
  have after : ((s.recorded action c).told today).deck.confirmations c =
      if action = .confirm then s.deck.confirmations c + 1 else 0 :=
    Deck.confirmations_recorded ..
  have news : (s.recorded action c).deck.justMastered =
      if action = .confirm ∧ s.deck.confirmations c = 2 then some c else none :=
    ready.recorded_justMastered ..
  rw [news, masters?, acted]
  cases action with
  | confirm =>
    simp only [after, if_true, true_and]
    refine if_congr ⟨fun both => both.1, fun two => ⟨two, ?_⟩⟩ rfl rfl
    rw [two]
    rfl
  | reject => simp
  | skip => simp

theorem booked_act (named : Action.ofInput text = .ok action) (inOrder : s.deck.hasQueue = true)
    (acts : action ≠ .skip) :
    Booked (.review text) s.deck ((s.recorded action c).told today).deck
      (Present.report (Present.headline action c)
        (((s.recorded action c).deck.justMastered.map Present.congratulation).toList)
        ((s.recorded action c).told today).deck) t
      (t.after (.swipe (s.recorded action c).deck.justMastered.isSome) today) := by
  have announces := announces?_recorded ready shown text action today inOrder
  have counted : counts (.review text) s.deck = true := by
    rw [counts, acts?_review named inOrder, shown]
    simpa using acts
  obtain ⟨swipes, masteries, _⟩ :=
    t.after_counts (.swipe (s.recorded action c).deck.justMastered.isSome) today
  refine ⟨?_, ?_, ?_⟩
  · rw [announces, masters?_recorded ready shown named inOrder]
  · rw [swipes, counted]
    rfl
  · rw [masteries, announces, Option.isSome_map]
    rfl

end Acting

theorem Answers.books (answers : Answers s today tool reply left) (ready : s.deck.Ready name)
    (held : t.HeldBy s.store) {n : Nat} (within : t.Within n) (fits : n + 1 < 10 ^ Number.maxDigits)
    (valid : today.Valid) (later : Streak.daysKept < today.number) :
    ∃ u, u.HeldBy left.store ∧ u.Within (n + 1) ∧ Booked tool s.deck left.deck reply t u := by
  have more := within.mono (Nat.le_succ n)
  have own : Key.streak ≠ s.deck.key := ready.key ▸ (Key.progress_ne_streak name).symm
  cases answers with
  | currentCard => exact ⟨t, held, more, booked_idle rfl rfl t⟩
  | progress => exact ⟨t, held, more, booked_idle rfl rfl t⟩
  | restart =>
    have kept : t.HeldBy (s.step .restart).2.store :=
      held.of_same (congrArg Except.ok (Assoc.get?_erase_of_ne own _))
    exact ⟨t, kept, more, booked_idle rfl rfl t⟩
  | @unknown text fault named =>
    have silent : announces? (.review text) (.ok ("Error: " ++ fault.message)) = none :=
      announces?_of_isParagraph _ fun _ => isParagraph_of_ofInput named
    have rests : counts (.review text) s.deck = false := by simp [counts, acts?, named]
    exact ⟨t, held, more, booked_idle silent rests t⟩
  | @closed text action named shut =>
    have rests : counts (.review text) s.deck = false := by simp [counts, acts?, named, shut]
    exact ⟨t, held, more, booked_idle rfl rests t⟩
  | @idle text action named inOrder done =>
    have silent : announces? (.review text) (.ok Present.emptyQueue) = none :=
      announces?_of_isParagraph _ fun _ => by decide
    have rests : counts (.review text) s.deck = false := by
      rw [counts, acts?_review named inOrder, done]
      rfl
    exact ⟨t, held, more, booked_idle silent rests t⟩
  | @skip text c named inOrder shown =>
    have line := ready.lines c (Deck.mem_cards_of_current shown)
    have silent : announces? (.review text)
        (Present.report (Present.headline .skip c) [] (s.skipped c).deck) = none := by
      cases told : Present.report (Present.headline .skip c) [] (s.skipped c).deck with
      | error fault => rfl
      | ok reply => simp [announces?, Present.announced?_report line told]
    have rests : counts (.review text) s.deck = false := by
      rw [counts, acts?_review named inOrder, shown]
      rfl
    exact ⟨t, held, more, booked_idle silent rests t⟩
  | @act text action c named inOrder shown acts =>
    have kept : t.HeldBy (s.recorded action c).store := held.of_same (ReliableStore.get?_set_of_ne s.store own _)
    obtain ⟨swiped, keptAfter⟩ := kept.recordSwipe valid later within
      (KeyValueStore.Takes.upTo_of_fits Table.taken_of_isWritable fits) (s.recorded action c).deck.justMastered.isSome
    refine ⟨t.after (.swipe (s.recorded action c).deck.justMastered.isSome) today, ?_, within.after ..,
      booked_act ready shown named inOrder acts⟩
    rw [Session.told, swiped]
    exact keptAfter

theorem heldBy_told_of_full (own : Key.streak ≠ s.deck.key) (held : t.HeldBy s.store)
    (full : (Json.int (t.swipes + 1) : Json).isWritable = false) (valid : today.Valid)
    (later : Streak.daysKept < today.number) (action : Action) (c : Card) :
    t.HeldBy ((s.recorded action c).told today).store := by
  have kept : t.HeldBy (s.recorded action c).store := held.of_same (ReliableStore.get?_set_of_ne s.store own _)
  let mastered := (s.recorded action c).deck.justMastered.isSome
  have unwritable : ((t.onDay today).swiped mastered today).streak.toJson.isWritable = false := by
    rw [Bool.eq_false_iff]
    intro written
    obtain ⟨_, _, swipes, _⟩ := Streak.Tally.isWritable_streak.1 written
    have counted : ((t.onDay today).swiped mastered today).swipes = t.swipes + 1 :=
      (t.after_counts (.swipe mastered) today).1
    rw [counted] at swipes
    exact absurd (full.symm.trans swipes) Bool.noConfusion
  have second : 1 < today.number := Nat.lt_of_le_of_lt (by decide) later
  have refused : Streak.recordSwipe (s.recorded action c).store mastered today =
      (.error .unwritableNumber, (s.recorded action c).store) :=
    kept.update_refused valid second (Streak.Tally.streak_swipe _ mastered valid later) unwritable
  rw [Session.told, refused]
  exact kept

end Sessions

end Tool

structure Exchange where
  before : Server
  call : Call
  reply : Except Fault String
  after : Server

namespace Server

def reached? (s : Server) (c : Call) : Option Deck :=
  c.address?.bind fun name => (s.deck? name).toOption.join

def exchanges (s : Server) : List (Call × Moment) → List Exchange
  | [] => []
  | (c, m) :: rest => ⟨s, c, (s.call c m).1, (s.call c m).2⟩ :: exchanges (s.call c m).2 rest

/-- Decks in memory are at rest, and the cards in the table are those of the origin. -/
structure Sound (s : Server) (origin : Table) : Prop where
  kept : ∀ name, s.table.get? (Key.cards name) = origin.get? (Key.cards name)
  decks : ∀ name d, s.decks.get? name = some d → d.Ready name

variable {s : Server} {origin : Table}

theorem Sound.ready (sound : s.Sound origin)
    (lines : ∀ fullName cards, Ingest.loadCards origin fullName = .ok cards →
      ∀ c ∈ cards, '\n' ∉ c.title.display.toList)
    {name : String} {d : Deck} (found : s.deck? name = .ok (some d)) : d.Ready name := by
  rcases deck?_cases found with held | ⟨_, cards, loaded, rfl⟩
  · exact sound.decks name d held
  · have fromOrigin : Ingest.loadCards origin name = .ok cards :=
      (Ingest.loadCards_congr (sound.kept name)).symm.trans loaded
    exact {
      key := rfl
      quiet := rfl
      marked := Deck.marked_opened cards s.table (Key.progress name)
      levels := Ingest.level_of_loadCards loaded
      lines := lines name cards fromOrigin }

theorem reached?_of_found {c : Call} {name : String} {d : Deck} (read : c.address? = some name)
    (found : s.deck? name = .ok (some d)) : s.reached? c = some d := by
  rw [reached?, read, Option.bind_some, found]
  rfl

theorem reached?_updated {c : Call} {name : String} (read : c.address? = some name)
    (left : Session Table) : (s.updated name left).reached? c = some left.deck :=
  reached?_of_found read (deck?_updated ..)

theorem Sound.updated (sound : s.Sound origin) {name : String} {d : Deck} {m : Moment}
    (ready : d.Ready name) {tool : Tool} {reply : Except Fault String} {left : Session Table}
    (answers : Tool.Answers (s.session d m) m.today tool reply left) :
    (s.updated name left).Sound origin := by
  obtain ⟨cards, key, quiet, others⟩ := answers.frame
  refine ⟨fun fullName => ?_, fun other known found => ?_⟩
  · have own : Key.cards fullName ≠ d.key := ready.key ▸ Key.cards_ne_progress fullName name
    exact (others _ own (Key.cards_ne_streak _)).trans (sound.kept fullName)
  · by_cases same : other = name
    · subst same
      have set : left.deck = known := by simpa [Server.updated] using found
      exact {
        key := set ▸ key.trans ready.key
        quiet := set ▸ quiet ready.quiet
        marked := set ▸ answers.marked ready.marked
        levels := set ▸ cards ▸ ready.levels
        lines := set ▸ cards ▸ ready.lines }
    · exact sound.decks other known ((Assoc.get?_set_of_ne same ..).symm.trans found)

end Server

namespace Exchange

def counts (x : Exchange) : Bool := (x.before.reached? x.call).any x.call.tool.counts

def masters? (x : Exchange) : Option Card :=
  match x.before.reached? x.call, x.after.reached? x.call with
  | some before, some after => x.call.tool.masters? before after
  | _, _ => none

def announces? (x : Exchange) : Option String := x.call.tool.announces? x.reply

/-- The reply tells the truth about the call, and the streak goes on from `t` to `u` by it. -/
structure Booked (x : Exchange) (t u : Streak.Tally) : Prop where
  announces : x.announces? = x.masters?.map (·.title.display)
  swipes : u.swipes = t.swipes + if x.counts then 1 else 0
  masteries : u.masteries = t.masteries + if x.announces?.isSome then 1 else 0

theorem booked_lost (x : Exchange) (lost : x.before.reached? x.call = none)
    (silent : x.call.tool.announces? x.reply = none) (t : Streak.Tally) : x.Booked t t where
  announces := by
    rw [announces?, silent, masters?, lost]
    rfl
  swipes := by simp [counts, lost]
  masteries := by simp [announces?, silent]

theorem booked_reached {x : Exchange} {d e : Deck} {t u : Streak.Tally}
    (before : x.before.reached? x.call = some d) (after : x.after.reached? x.call = some e)
    (booked : x.call.tool.Booked d e x.reply t u) : x.Booked t u where
  announces := by
    rw [masters?, before, after]
    exact booked.announces
  swipes := by
    rw [counts, before]
    exact booked.swipes
  masteries := booked.masteries

end Exchange

namespace Server

variable {s left : Server} {c : Call} {m : Moment} {reply : Except Fault String} {origin : Table}
  {t : Streak.Tally}

theorem isParagraph_unclear {text : String} {fault : Fault} (unread : RepoName.ofText text = .error fault)
    (one : IsParagraph text.toList) : IsParagraph ("Error: " ++ fault.message).toList := by
  unfold RepoName.ofText at unread
  simp only at unread
  split at unread
  · exact nomatch unread
  · split at unread
    · exact nomatch unread
    · obtain rfl := Except.error.inj unread
      change IsParagraph ("Error: " ++ ("Invalid repo format: '" ++ text ++ "'. Use owner/repo or a GitHub URL.")).toList
      simp only [String.toList_append]
      exact ((one.prepend (by decide)).append (by decide) (by decide)).prepend (by decide)

theorem isParagraph_notIngested {repo : String} (one : IsParagraph repo.toList) :
    IsParagraph (notIngested repo).toList := by
  change IsParagraph ("No cards for '" ++ repo ++ "'. Run 'python pipeline.py ingest " ++ repo ++ "' first.").toList
  simp only [String.toList_append]
  have named : IsParagraph ("No cards for '".toList ++ repo.toList) := one.prepend (by decide)
  have advised : IsParagraph ("'. Run 'python pipeline.py ingest ".toList ++ (repo.toList ++ "' first.".toList)) :=
    (one.append (by decide) (by decide)).prepend (by decide)
  rw [List.append_assoc, List.append_assoc]
  exact named.append advised (by simp)

theorem Answers.books (answers : Answers s c m reply left) (sound : s.Sound origin)
    (lines : ∀ fullName cards, Ingest.loadCards origin fullName = .ok cards →
      ∀ c ∈ cards, '\n' ∉ c.title.display.toList)
    (clear : c.tool.isReview = true → IsParagraph c.repo.toList) (held : t.HeldBy s.table) {n : Nat}
    (within : t.Within n) (fits : n + 1 < 10 ^ Number.maxDigits) (valid : m.today.Valid)
    (later : Streak.daysKept < m.today.number) :
    left.Sound origin ∧ ∃ u, u.HeldBy left.table ∧ u.Within (n + 1) ∧ Exchange.Booked ⟨s, c, reply, left⟩ t u := by
  have more := within.mono (Nat.le_succ n)
  cases answers with
  | @unclear fault unread =>
    have lost : s.reached? c = none := by simp [reached?, Call.address?, unread]
    have silent : c.tool.announces? (.ok ("Error: " ++ fault.message)) = none :=
      c.tool.announces?_of_isParagraph fun review => isParagraph_unclear unread (clear review)
    exact ⟨sound, t, held, more, Exchange.booked_lost ⟨s, c, _, s⟩ lost silent t⟩
  | @broken name fault read fails =>
    have lost : s.reached? c = none := by
      rw [reached?, read, Option.bind_some, fails]
      rfl
    have silent : c.tool.announces? (.error fault) = none := by cases c.tool <;> rfl
    exact ⟨sound, t, held, more, Exchange.booked_lost ⟨s, c, _, s⟩ lost silent t⟩
  | @empty name read nothing =>
    have lost : s.reached? c = none := by
      rw [reached?, read, Option.bind_some, nothing]
      rfl
    have silent : c.tool.announces? (.ok (notIngested c.repo)) = none :=
      c.tool.announces?_of_isParagraph fun review => isParagraph_notIngested (clear review)
    exact ⟨sound, t, held, more, Exchange.booked_lost ⟨s, c, _, s⟩ lost silent t⟩
  | @reached name d reply session read found answers =>
    have ready := sound.ready lines found
    obtain ⟨u, heldAfter, withinAfter, booked⟩ := answers.books ready held within fits valid later
    exact ⟨sound.updated ready answers, u, heldAfter, withinAfter,
      Exchange.booked_reached (reached?_of_found read found) (reached?_updated read session) booked⟩

theorem Sound.books {calls : List (Call × Moment)} (sound : s.Sound origin)
    (lines : ∀ fullName cards, Ingest.loadCards origin fullName = .ok cards →
      ∀ c ∈ cards, '\n' ∉ c.title.display.toList)
    (clear : ∀ x ∈ calls, x.1.tool.isReview = true → IsParagraph x.1.repo.toList) (held : t.HeldBy s.table) {n : Nat}
    (within : t.Within n) (fits : n + calls.length < 10 ^ Number.maxDigits)
    (dates : ∀ x ∈ calls, x.2.today.Valid ∧ 2 ≤ x.2.today.year) :
    (∀ x ∈ s.exchanges calls, x.announces? = x.masters?.map (·.title.display)) ∧
      ∃ u : Streak.Tally, u.HeldBy (s.run calls).table ∧
        u.swipes = t.swipes + (s.exchanges calls).countP (·.counts) ∧
        u.masteries = t.masteries + (s.exchanges calls).countP (·.announces?.isSome) := by
  -- Each call uses up one unit of the room, so that the bound moves from `n` to `n + 1` with the calls that are left.
  induction calls generalizing s t n with
  | nil => exact ⟨by simp [exchanges], t, held, by simp [exchanges], by simp [exchanges]⟩
  | cons entry rest ih =>
    obtain ⟨c, m⟩ := entry
    obtain ⟨valid, year⟩ := dates (c, m) List.mem_cons_self
    have later : Streak.daysKept < m.today.number := Streak.daysKept_lt_number valid year
    rw [List.length_cons] at fits
    have next : n + 1 < 10 ^ Number.maxDigits := Nat.lt_of_le_of_lt (by omega) fits
    have others : n + 1 + rest.length < 10 ^ Number.maxDigits := Nat.lt_of_le_of_lt (by omega) fits
    obtain ⟨soundAfter, u, heldAfter, withinAfter, announces, swipes, masteries⟩ :=
      (s.answers_call c m).books sound lines (clear (c, m) List.mem_cons_self) held within next valid later
    obtain ⟨others, v, heldLast, moreSwipes, moreMasteries⟩ :=
      ih soundAfter (fun x member => clear x (List.mem_cons_of_mem _ member)) heldAfter withinAfter others
        fun x member => dates x (List.mem_cons_of_mem _ member)
    rw [run_cons]
    refine ⟨?_, v, heldLast, ?_, ?_⟩
    · intro x member
      rcases List.mem_cons.1 member with rfl | later
      · exact announces
      · exact others x later
    · rw [moreSwipes, swipes, exchanges, List.countP_cons]
      split <;> omega
    · rw [moreMasteries, masteries, exchanges, List.countP_cons]
      split <;> omega

/-- Over any calls to a fresh server: a reply to a review tells the mastery of a card exactly when that
review takes the card from two confirmations to three, and the streak grows by the reviews that confirm or
reject a card and by the news that are told. The texts that name repositories hold no empty lines, and the counters
have room for the calls. -/
theorem run_accounts (name : Json) (table : Table) (held : t.HeldBy table) {n : Nat} (within : t.Within n)
    (lines : ∀ fullName cards, Ingest.loadCards table fullName = .ok cards →
      ∀ c ∈ cards, '\n' ∉ c.title.display.toList)
    (calls : List (Call × Moment)) (fits : n + calls.length < 10 ^ Number.maxDigits)
    (clear : ∀ x ∈ calls, x.1.tool.isReview = true → IsParagraph x.1.repo.toList)
    (dates : ∀ x ∈ calls, x.2.today.Valid ∧ 2 ≤ x.2.today.year) :
    let s : Server := { name := name, table := table }
    (∀ x ∈ s.exchanges calls, x.announces? = x.masters?.map (·.title.display)) ∧
      ∃ u : Streak.Tally, u.HeldBy (s.run calls).table ∧
        u.swipes = t.swipes + (s.exchanges calls).countP (·.counts) ∧
        u.masteries = t.masteries + (s.exchanges calls).countP (·.announces?.isSome) := by
  have sound : ({ name := name, table := table } : Server).Sound table := {
    kept := fun _ => rfl
    decks := fun _ _ found => absurd found (by simp) }
  exact sound.books lines clear held within fits dates

def almostMastered : Table :=
  ⟨[(Key.cards "o/r", .arr [(Card.ofId "f").toJson]),
    (Key.progress "o/r", .obj [("f", ReviewState.toJson ⟨.str "f", 2, false, 5⟩)])]⟩

theorem loadCards_almostMastered {fullName : String} {cards : List Card}
    (loaded : Ingest.loadCards almostMastered fullName = .ok cards) : ∀ c ∈ cards, c = Card.ofId "f" := by
  by_cases same : Key.cards "o/r" = Key.cards fullName
  · have one : Ingest.loadCards almostMastered fullName = .ok [Card.ofId "f"] := by
      simp only [Ingest.loadCards, KeyValueStore.read, KeyValueStore.get?, Table.get?, almostMastered,
        Assoc.get?, if_pos same]
      rfl
    obtain rfl : [Card.ofId "f"] = cards := Except.ok.inj (one.symm.trans loaded)
    simp
  · have other : Key.progress "o/r" ≠ Key.cards fullName := (Key.cards_ne_progress fullName "o/r").symm
    have none : Ingest.loadCards almostMastered fullName = .ok [] := by
      simp only [Ingest.loadCards, KeyValueStore.read, KeyValueStore.get?, Table.get?, almostMastered,
        Assoc.get?, if_neg same, if_neg other]
      rfl
    obtain rfl : [] = cards := Except.ok.inj (none.symm.trans loaded)
    simp

def lastSteps : List (Call × Moment) :=
  [(⟨.review " Confirm", "O/r"⟩, ⟨7, ⟨2024, 3, 1⟩⟩), (⟨.review "reject", "o/r"⟩, ⟨8, ⟨2024, 3, 2⟩⟩)]

theorem third_confirmation_accounts :
    let s : Server := { name := .str "repocards", table := almostMastered }
    Streak.Tally.HeldBy {} almostMastered ∧ Streak.Tally.Within {} 0 ∧
    (∀ fullName cards, Ingest.loadCards almostMastered fullName = .ok cards →
      ∀ c ∈ cards, '\n' ∉ c.title.display.toList) ∧
    0 + lastSteps.length < 10 ^ Number.maxDigits ∧
    (∀ x ∈ lastSteps, x.1.tool.isReview = true → IsParagraph x.1.repo.toList) ∧
    (∀ x ∈ lastSteps, x.2.today.Valid ∧ 2 ≤ x.2.today.year) ∧
    (s.exchanges lastSteps).map (·.announces?) = [some "f", none] ∧
    ∃ u : Streak.Tally, u.HeldBy (s.run lastSteps).table ∧ u.swipes = 2 ∧ u.masteries = 1 := by
  intro s
  have fresh : almostMastered.get? Key.streak = none := by
    simp only [Table.get?, almostMastered, Assoc.get?, if_neg (Key.cards_ne_streak _),
      if_neg (Key.progress_ne_streak _)]
  have held : Streak.Tally.HeldBy {} almostMastered := .inr ⟨congrArg Except.ok fresh, rfl⟩
  have lines : ∀ fullName cards, Ingest.loadCards almostMastered fullName = .ok cards →
      ∀ c ∈ cards, '\n' ∉ c.title.display.toList := by
    intro fullName cards loaded c member
    rw [loadCards_almostMastered loaded c member]
    decide
  have within : Streak.Tally.Within {} 0 := Streak.Tally.within_empty
  have fits : 0 + lastSteps.length < 10 ^ Number.maxDigits := by decide +kernel
  have clear : ∀ x ∈ lastSteps, x.1.tool.isReview = true → IsParagraph x.1.repo.toList := by decide
  have dates : ∀ x ∈ lastSteps, x.2.today.Valid ∧ 2 ≤ x.2.today.year := by decide
  have told : (s.exchanges lastSteps).map (fun x => (x.counts, x.announces?)) =
      [(true, some "f"), (true, none)] := by
    decide +kernel
  obtain ⟨_, u, heldLast, swipes, masteries⟩ :=
    run_accounts (.str "repocards") almostMastered held within lines lastSteps fits clear dates
  have counted : (s.exchanges lastSteps).countP (·.counts) = 2 := by
    simpa [List.countP_map, Function.comp_def] using congrArg (List.countP (·.1)) told
  have announced : (s.exchanges lastSteps).countP (·.announces?.isSome) = 1 := by
    simpa [List.countP_map, Function.comp_def] using congrArg (List.countP (·.2.isSome)) told
  have news : (s.exchanges lastSteps).map (·.announces?) = [some "f", none] := by
    simpa [Function.comp_def] using congrArg (List.map (·.2)) told
  refine ⟨held, within, lines, fits, clear, dates, news, u, heldLast, ?_, ?_⟩
  · rw [swipes, counted]
    rfl
  · rw [masteries, announced]
    rfl

/-- A review for a text that names no repository and holds an empty line. -/
def echoedStep : List (Call × Moment) :=
  [(⟨.review "confirm", "x\n\nMastered y!\n\nz"⟩, ⟨7, ⟨2024, 3, 1⟩⟩)]

def reviewedTable (swipes : Int) : Table where
  rows :=
    [(Key.cards "o/r", .arr [(Card.ofId "f").toJson]), (Key.streak, (Streak.Tally.streak { swipes := swipes }).toJson)]

def firstStep : List (Call × Moment) := [(⟨.review "confirm", "o/r"⟩, ⟨7, ⟨2024, 3, 1⟩⟩)]

theorem full_count_stays {swipes : Int} (full : (Json.int (swipes + 1) : Json).isWritable = false) :
    let s : Server := { name := .str "repocards", table := reviewedTable swipes }
    (s.exchanges firstStep).countP (·.counts) = 1 ∧
      Streak.Tally.HeldBy { swipes := swipes } (s.run firstStep).table := by
  intro s
  let c := Card.ofId "f"
  let d := Deck.opened [c] s.table (Key.progress "o/r")
  have fresh : KeyValueStore.get? s.table (Key.progress "o/r") = .ok none := by
    simp only [KeyValueStore.get?, Table.get?, s, reviewedTable, Assoc.get?,
      if_neg (Key.cards_ne_progress "o/r" "o/r"), if_neg (Key.progress_ne_streak "o/r").symm]
  have loaded : Ingest.loadCards s.table "o/r" = .ok [c] := by
    simp only [Ingest.loadCards, KeyValueStore.read, KeyValueStore.get?, Table.get?, s, reviewedTable, Assoc.get?]
    rfl
  have found : s.deck? "o/r" = .ok (some d) := by
    simp only [deck?, s, Assoc.get?_nil, loaded]
    rfl
  let call : Call := ⟨.review "confirm", "o/r"⟩
  let m : Moment := ⟨7, ⟨2024, 3, 1⟩⟩
  have read : call.address? = some "o/r" := by decide +kernel
  have named : Action.ofInput "confirm" = .ok .confirm := by decide +kernel
  have shown : d.current = some c := by
    rw [Deck.current, Deck.queue_opened_of_absent [c] fresh]
    rfl
  constructor
  · have counts : Exchange.counts ⟨s, call, (s.call call m).1, (s.call call m).2⟩ = true := by
      change (s.reached? call).any call.tool.counts = true
      rw [reached?_of_found read found, Option.any_some, Tool.counts, Tool.acts?_review named rfl, shown]
      rfl
    exact List.countP_eq_length.2 fun x member => List.mem_singleton.1 member ▸ counts
  · have answers : Tool.Answers (s.session d m) m.today (.review "confirm") _ _ :=
      .act named rfl shown Action.noConfusion
    have called := (Answers.reached read found answers).eq_call
    have valid : m.today.Valid := by decide
    have later := Streak.daysKept_lt_number valid (by decide)
    have held : Streak.Tally.HeldBy { swipes := swipes } s.table := by
      refine .inl ?_
      simp only [KeyValueStore.get?, Table.get?, s, reviewedTable, Assoc.get?, if_neg (Key.cards_ne_streak "o/r")]
      rfl
    have step : s.run firstStep = (s.call call m).2 := rfl
    rw [step, called]
    exact Tool.heldBy_told_of_full (Key.progress_ne_streak "o/r").symm held full valid later .confirm c

/-- What a caller writes may be told as news, and a count without room does not grow. -/
theorem books_miss_calls :
    let s : Server := { name := .str "repocards", table := {} }
    let full : Server := { name := .str "repocards", table := reviewedTable (10 ^ Number.maxDigits - 1) }
    (s.exchanges echoedStep).map (fun x => (x.announces?, x.masters?.isSome)) = [(some "y", false)] ∧
      (full.exchanges firstStep).countP (·.counts) = 1 ∧
      Streak.Tally.HeldBy { swipes := 10 ^ Number.maxDigits - 1 } (full.run firstStep).table :=
  ⟨by decide +kernel, full_count_stays Json.isWritable_beyond⟩

end Server

end CodeDeck
