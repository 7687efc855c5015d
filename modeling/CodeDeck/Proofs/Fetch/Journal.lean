import CodeDeck.Fetch.Journal

/-! What a piece of work does: the requests that it sends, and its result. The requests of a sequence are
those of its steps, up to the first step that fails. -/

namespace CodeDeck.Work

open CodeDeck.Http

variable {α β : Type}

/-- From every journal on, the work sends the requests and comes to the result. -/
def Does (work : Work α) (requests : List Request) (result : Except Fault α) : Prop :=
  ∀ j, (work.perform j).1 = result ∧ (work.perform j).2.requests = j.requests ++ requests

theorem Does.unique {work : Work α} {first second : List Request} {result other : Except Fault α}
    (does : Does work first result) (does' : Does work second other) : result = other ∧ first = second := by
  obtain ⟨came, sent⟩ := does {}
  obtain ⟨came', sent'⟩ := does' {}
  exact ⟨came.symm.trans came', List.append_cancel_left (sent.symm.trans sent')⟩

theorem perform_bind (work : Work α) (next : α → Work β) (j : Journal) :
    (work >>= next).perform j =
      match work.perform j with
      | (.ok a, j) => (next a).perform j
      | (.error fault, j) => (.error fault, j) := by
  unfold perform ExceptT.run StateT.run
  simp only [bind, ExceptT.bind, ExceptT.mk, StateT.bind, ExceptT.bindCont]
  cases work j with
  | mk result left => cases result <;> rfl

theorem exists_of_bind {work : Work α} {next : α → Work β} {j : Journal} {b : β}
    (came : ((work >>= next).perform j).1 = .ok b) :
    ∃ a, (work.perform j).1 = .ok a ∧ ((next a).perform (work.perform j).2).1 = .ok b := by
  rw [perform_bind] at came
  cases ended : work.perform j with
  | mk result left =>
    rw [ended] at came
    cases result with
    | error fault => contradiction
    | ok a => exact ⟨a, rfl, came⟩

theorem not_of_throw {fault : Fault} {next : α → Work β} {j : Journal} {b : β} :
    (((throw fault : Work α) >>= next).perform j).1 ≠ .ok b := by
  intro came
  obtain ⟨a, thrown, _⟩ := exists_of_bind came
  contradiction

theorem Does.bind {work : Work α} {next : α → Work β} {first others : List Request} {a : α}
    {result : Except Fault β} (does : Does work first (.ok a)) (rest : Does (next a) others result) :
    Does (work >>= next) (first ++ others) result := by
  intro j
  obtain ⟨reached, sent⟩ := does j
  obtain ⟨result', sent'⟩ := rest (work.perform j).2
  have split : work.perform j = (.ok a, (work.perform j).2) := Prod.ext reached rfl
  rw [perform_bind, split]
  exact ⟨result', by rw [sent', sent, List.append_assoc]⟩

theorem Does.fails {work : Work α} {requests : List Request} {fault : Fault}
    (does : Does work requests (.error fault)) (next : α → Work β) :
    Does (work >>= next) requests (.error fault) := by
  intro j
  obtain ⟨stopped, sent⟩ := does j
  have split : work.perform j = (.error fault, (work.perform j).2) := Prod.ext stopped rfl
  rw [perform_bind, split]
  exact ⟨rfl, sent⟩

theorem Does.next {work : Work α} {next : α → Work β} {requests : List Request} {a : α}
    {result : Except Fault β} (does : Does work [] (.ok a)) (rest : Does (next a) requests result) :
    Does (work >>= next) requests result := does.bind rest

theorem does_pure (a : α) : Does (pure a) [] (.ok a) := fun _ => ⟨rfl, (List.append_nil _).symm⟩

theorem Does.last {work : Work α} {next : α → Work β} {requests : List Request} {a : α}
    {result : Except Fault β} (does : Does work requests (.ok a)) (rest : Does (next a) [] result) :
    Does (work >>= next) requests result := by
  have whole := does.bind rest
  rwa [List.append_nil] at whole

theorem Does.map {work : Work α} {requests : List Request} {result : Except Fault α}
    (does : Does work requests result) (form : α → β) :
    Does (work >>= fun a => pure (form a)) requests (result.map form) := by
  cases result with
  | error fault => exact does.fails _
  | ok a => exact does.last (does_pure (form a))

theorem does_throw (fault : Fault) : Does (throw fault : Work α) [] (.error fault) := fun _ =>
  ⟨rfl, (List.append_nil _).symm⟩

theorem does_ofExcept (result : Except Fault α) : Does (ofExcept result) [] result := fun _ =>
  ⟨rfl, (List.append_nil _).symm⟩

theorem does_value {given : Except Fault α} {a : α} (known : given = .ok a) :
    Does (ofExcept given) [] (.ok a) := known ▸ does_ofExcept given

theorem does_info (line : String) : Does (info line) [] (.ok ()) := fun _ =>
  ⟨rfl, (List.append_nil _).symm⟩

theorem does_warn (line : String) : Does (warn line) [] (.ok ()) := fun _ =>
  ⟨rfl, (List.append_nil _).symm⟩

theorem does_sent (r : Request) : Does (sent r) [r] (.ok ()) := fun _ => ⟨rfl, rfl⟩

end CodeDeck.Work
