import CodeDeck.Proofs.Review.Step

/-! The number of mastered cards as a balance. It goes up by one with each review that tells of a new mastery, goes down
by one with each rejection of a mastered card, and stays as it is with every other one. Whether a card is mastered
follows from its confirmations alone, so this holds of every progress. -/

namespace CodeDeck

theorem Assoc.countP_values_set {κ α : Type} [DecidableEq κ] (is : α → Bool) (name : κ) (value : α) (m : Assoc κ α) :
    (m.set name value).values.countP is + (if (m.get? name).any is then 1 else 0) =
      m.values.countP is + if is value then 1 else 0 := by
  induction m with
  | nil => simp [set, values, List.countP_cons]
  | cons entry rest ih =>
    unfold values at ih ⊢
    by_cases same : entry.1 = name
    · simp only [set, get?, if_pos same, List.map_cons, List.countP_cons, Option.any_some]
      omega
    · simp only [set, get?, if_neg same, List.map_cons, List.countP_cons]
      omega

namespace Progress

/-- A confirmation, a rejection or a skip of a card, at a time. The id of the card can be looked up. -/
structure Verdict where
  action : Action
  cardId : Json
  now : Int
  fits : cardId.isKey = true

/-- One review: the progress in front of it and behind it, and whether it told of a new mastery. -/
structure Turn where
  verdict : Verdict
  before : Progress
  after : Progress
  told : Bool

namespace Turn

/-- Was it a rejection of a card that was mastered at that moment? -/
def loses (t : Turn) : Bool :=
  t.verdict.action = .reject && (t.before.get? t.verdict.cardId.key).any ReviewState.mastered

def SparesOthers (t : Turn) : Prop := ∀ key ≠ t.verdict.cardId.key, t.after.get? key = t.before.get? key

end Turn

def reviewAll (p : Progress) : List Verdict → Except Fault (List Turn × Progress)
  | [] => .ok ([], p)
  | v :: later =>
    (p.applied v.action v.cardId v.now).bind fun result =>
      (reviewAll result.1 later).map fun run => (⟨v, p, result.1, result.2⟩ :: run.1, run.2)

section Step

variable {p : Progress} (marked : p.Marked) (action : Action) (cardId : Json) (now : Int)

theorem mastered_before :
    ((p.get? cardId.key).getD (.unseen cardId)).mastered = (p.get? cardId.key).any ReviewState.mastered := by
  cases p.get? cardId.key with
  | none => rfl
  | some s => rfl

include marked in
theorem mastered_reviewed_confirm (held : ((p.get? cardId.key).getD (.unseen cardId)).mastered = true) :
    (p.reviewed .confirm cardId now).mastered = true := by
  rw [(marked.getD cardId).mastered_iff] at held
  rw [(p.marked_reviewed .confirm cardId now).mastered_iff]
  exact Int.le_add_one held

include marked in
/-- A review changes the number of mastered cards by what it tells and by what it loses. -/
theorem masteredCount_apply :
    (p.apply action cardId now).1.masteredCount +
        (if action = .reject && (p.get? cardId.key).any ReviewState.mastered then 1 else 0) =
      p.masteredCount + if (p.apply action cardId now).2 then 1 else 0 := by
  have counted (s : ReviewState) := Assoc.countP_values_set ReviewState.mastered cardId.key s p
  cases action with
  | skip => rfl
  | reject =>
    have lost : (p.reviewed .reject cardId now).mastered = false := rfl
    have count := counted (p.reviewed .reject cardId now)
    rw [lost] at count
    exact count
  | confirm =>
    have count := counted (p.reviewed .confirm cardId now)
    have told : (p.apply .confirm cardId now).2 = ((p.reviewed .confirm cardId now).mastered &&
        !((p.get? cardId.key).getD (.unseen cardId)).mastered) := rfl
    have keeps := mastered_reviewed_confirm marked cardId now
    rw [← mastered_before] at count
    rw [told, p.apply_eq_set .confirm cardId now (by decide)]
    unfold masteredCount
    cases held : ((p.get? cardId.key).getD (.unseen cardId)).mastered with
    | false =>
      rw [held] at count
      rw [Bool.not_false, Bool.and_true]
      exact count
    | true =>
      rw [held, keeps held] at count
      rw [Bool.not_true, Bool.and_false]
      exact Nat.add_right_cancel count

theorem get?_apply_of_ne {key : Json.Key} (other : key ≠ cardId.key) :
    (p.apply action cardId now).1.get? key = p.get? key := by
  by_cases skips : action = .skip
  · subst skips
    rfl
  · rw [p.apply_eq_set action cardId now skips]
    exact Assoc.get?_set_of_ne other ..

include marked in
theorem marked_apply : (p.apply action cardId now).1.Marked := by
  by_cases skips : action = .skip
  · subst skips
    exact marked
  · rw [p.apply_eq_set action cardId now skips]
    exact marked.set _ (p.marked_reviewed action cardId now)

end Step

section Run

variable (p : Progress) (v : Verdict)

def Verdict.on : Turn := ⟨v, p, (p.apply v.action v.cardId v.now).1, (p.apply v.action v.cardId v.now).2⟩

theorem applied_eq : p.applied v.action v.cardId v.now = .ok ((v.on p).after, (v.on p).told) := if_pos v.fits

theorem reviewAll_cons (later : List Verdict) :
    p.reviewAll (v :: later) =
      ((v.on p).after.reviewAll later).map fun run => (v.on p :: run.1, run.2) := by
  rw [reviewAll, applied_eq]
  rfl

theorem masteredCount_on {p : Progress} (marked : p.Marked) (v : Verdict) :
    (v.on p).after.masteredCount + (if (v.on p).loses then 1 else 0) =
      p.masteredCount + if (v.on p).told then 1 else 0 := masteredCount_apply marked v.action v.cardId v.now

theorem sparesOthers_on : (v.on p).SparesOthers := fun _ other => get?_apply_of_ne v.action v.cardId v.now other

theorem exists_reviewAll {p : Progress} (marked : p.Marked) (verdicts : List Verdict) :
    ∃ turns last, p.reviewAll verdicts = .ok (turns, last) ∧ turns.map Turn.verdict = verdicts ∧
      last.masteredCount + turns.countP Turn.loses = p.masteredCount + turns.countP Turn.told ∧
      ∀ t ∈ turns, t.SparesOthers := by
  induction verdicts generalizing p with
  | nil => exact ⟨[], p, rfl, rfl, rfl, fun t member => absurd member List.not_mem_nil⟩
  | cons v later ih =>
    have kept : (v.on p).after.Marked := marked_apply marked v.action v.cardId v.now
    obtain ⟨turns, last, run, same, balance, spare⟩ := ih kept
    have step := masteredCount_on marked v
    refine ⟨v.on p :: turns, last, ?_, congrArg (v :: ·) same, ?_, List.forall_mem_cons.2 ⟨p.sparesOthers_on v, spare⟩⟩
    · rw [reviewAll_cons, run]
      rfl
    · rw [List.countP_cons, List.countP_cons]
      omega

end Run

/-- Mastery is conserved: in the end as many cards are mastered as at first, and one more for each review that told of
it, and one less for each rejection of a mastered card. No review touches the entry of another card. -/
theorem reviewAll_conserves {p : Progress} (marked : p.Marked) (verdicts : List Verdict) :
    ∃ turns last, p.reviewAll verdicts = .ok (turns, last) ∧ turns.map Turn.verdict = verdicts ∧
      (last.masteredCount : Int) =
        p.masteredCount + turns.countP Turn.told - turns.countP Turn.loses ∧
      ∀ t ∈ turns, t.SparesOthers := by
  obtain ⟨turns, last, run, same, balance, spare⟩ := exists_reviewAll marked verdicts
  exact ⟨turns, last, run, same, by omega, spare⟩

def unsteady : Progress :=
  [(.text "a", { cardId := .str "a", timesConfirmed := 2 }),
    (.text "b", { cardId := .str "b", timesConfirmed := 5, mastered := true })]

theorem one_mastered_one_lost :
    unsteady.Marked ∧ ∃ turns last,
      unsteady.reviewAll [⟨.confirm, .str "a", 1, rfl⟩, ⟨.reject, .str "b", 2, rfl⟩, ⟨.reject, .str "a", 3, rfl⟩] =
        .ok (turns, last) ∧ turns.map Turn.told = [true, false, false] ∧
      turns.map Turn.loses = [false, true, true] ∧ (last.masteredCount : Int) = 1 + 1 - 2 := by
  have marked : unsteady.Marked := by
    intro s member
    rcases List.mem_cons.1 member with rfl | later
    · rfl
    · rw [List.mem_singleton.1 later]
      rfl
  obtain ⟨turns, last, run, same, balance, _⟩ := reviewAll_conserves marked
    [⟨.confirm, .str "a", 1, rfl⟩, ⟨.reject, .str "b", 2, rfl⟩, ⟨.reject, .str "a", 3, rfl⟩]
  obtain ⟨rfl, rfl⟩ := Prod.mk.inj (Except.ok.inj run)
  exact ⟨marked, _, _, rfl, by decide, by decide, balance⟩

end Progress

end CodeDeck
