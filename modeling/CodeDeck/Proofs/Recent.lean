import CodeDeck.Recent
import CodeDeck.Proofs.Json
import CodeDeck.Proofs.Store

/-! The list of visits in the form in which it is written, objects only. A visit that names its repository can be
added to every such list, and the list is of that form again. -/

namespace CodeDeck.Recent

def elsewhere (name : Json) (visits : List Json) : List Json :=
  visits.filter fun visit => !((visit.field? "full_name").getD .null).same name

theorem others_eq {entry name : Json} (named : entry.field? "full_name" = some name) {visits : List Json}
    (objects : ∀ visit ∈ visits, visit.isObject = true) : others entry visits = .ok (elsewhere name visits) := by
  induction visits with
  | nil => rfl
  | cons visit rest ih =>
    have asked := Json.askOr_of_isObject (objects visit List.mem_cons_self) "full_name" .null
    have own := Json.require_of_field? named
    have kept := ih fun old member => objects old (List.mem_cons_of_mem _ member)
    simp only [others, asked, own, kept, bind, Except.bind, pure, Except.pure]
    cases here : ((visit.field? "full_name").getD .null).same name <;> simp [elsewhere, here]

theorem exists_visited {entry : Json} (object : entry.isObject = true) (now : Json) :
    ∃ latest, visited now entry = .ok latest ∧ latest.isObject = true := by
  cases entry with
  | obj fields => exact ⟨_, rfl, rfl⟩
  | _ => simp [Json.isObject] at object

/-- The list of visits with one more in front, in place of an older one to the named repository. -/
def updated (latest name : Json) (visits : List Json) : List Json := (latest :: elsewhere name visits).take capacity

theorem isObject_of_mem_updated {latest name : Json} (object : latest.isObject = true) {visits : List Json}
    (objects : ∀ visit ∈ visits, visit.isObject = true) : ∀ visit ∈ updated latest name visits, visit.isObject = true := by
  intro visit member
  rcases List.mem_cons.1 (List.mem_of_mem_take member) with rfl | old
  · exact object
  · exact objects visit (List.mem_filter.1 old).1

section Whole

variable {p : Int → Bool}

theorem allWhole_visited {entry latest now : Json} (noted : entry.allWhole p = true) (time : now.allWhole p = true)
    (entered : visited now entry = .ok latest) : latest.allWhole p = true := by
  cases entry with
  | obj fields =>
    obtain rfl := Except.ok.inj entered
    rw [Json.allWhole_obj, List.all_eq_true] at noted ⊢
    intro field member
    rcases Assoc.mem_values_set (List.mem_map_of_mem member) with same | old
    · exact same ▸ time
    · obtain ⟨known, inside, same⟩ := List.mem_map.1 old
      exact same ▸ noted known inside
  | _ => exact nomatch entered

theorem allWhole_updated {latest : Json} (whole : latest.allWhole p = true) (name : Json) {visits : List Json}
    (past : (Json.arr visits).allWhole p = true) : (Json.arr (updated latest name visits)).allWhole p = true := by
  rw [Json.allWhole_arr, List.all_eq_true] at past ⊢
  intro visit member
  rcases List.mem_cons.1 (List.mem_of_mem_take member) with rfl | old
  · exact whole
  · exact past visit (List.mem_filter.1 old).1

end Whole

theorem push_eq {held entry name latest now : Json} {visits : List Json} (list : ofStored held = .arr visits)
    (objects : ∀ visit ∈ visits, visit.isObject = true) (named : entry.field? "full_name" = some name)
    (entered : visited now entry = .ok latest) : push held entry now = .ok (updated latest name visits) := by
  simp only [push, list, entries, others_eq named objects, entered, bind, Except.bind, pure, Except.pure]
  rfl

variable {σ : Type} [KeyValueStore σ]

/-- Does the store hold the visits? A store without a list holds none. -/
structure HeldBy (visits : List Json) (store : σ) : Prop where
  objects : ∀ visit ∈ visits, visit.isObject = true
  held : KeyValueStore.get? store Key.recent = .ok (some (.arr visits)) ∨
    KeyValueStore.get? store Key.recent = .ok none ∧ visits = []

theorem HeldBy.of_same {visits : List Json} {store other : σ} (held : HeldBy visits store)
    (same : KeyValueStore.get? other Key.recent = KeyValueStore.get? store Key.recent) :
    HeldBy visits other where
  objects := held.objects
  held := by
    rw [same]
    exact held.held

theorem ofStored_arr (visits : List Json) : ofStored (.arr visits) = .arr visits := by
  unfold ofStored
  cases visits <;> rfl

theorem HeldBy.stored {visits : List Json} {store : σ} (held : HeldBy visits store) :
    Recent.stored store = .ok (.arr visits) := by
  unfold Recent.stored KeyValueStore.read
  rcases held.held with written | ⟨absent, rfl⟩
  · rw [written]
    exact congrArg Except.ok (ofStored_arr visits)
  · rw [absent]
    rfl

def written (visits : List Json) (store : σ) : σ := (KeyValueStore.set store Key.recent (.arr visits)).2

theorem add_of_stored {visits : List Json} {store : σ} (shown : stored store = .ok (.arr visits))
    (objects : ∀ visit ∈ visits, visit.isObject = true) {entry name latest now : Json}
    (named : entry.field? "full_name" = some name) (entered : visited now entry = .ok latest)
    (taken : (KeyValueStore.set store Key.recent (.arr (updated latest name visits))).1 = .ok ()) :
    add store entry now =
      (.ok (updated latest name visits), written (updated latest name visits) store) := by
  unfold stored at shown
  cases read : KeyValueStore.read store Key.recent with
  | error fault => simp [read, Except.map] at shown
  | ok held =>
    rw [read] at shown
    have pushed := push_eq (Except.ok.inj shown) objects named entered
    simp only [add, read, Except.bind, pushed]
    rw [KeyValueStore.set_eq taken]
    rfl

variable [ReliableStore σ]

theorem get?_add_of_ne (store : σ) (entry now : Json) {key : String} (different : key ≠ Key.recent) :
    KeyValueStore.get? (add store entry now).2 key = KeyValueStore.get? store key := by
  unfold add
  split
  · rfl
  · next updated _ =>
    have others := ReliableStore.get?_set_of_ne store different (.arr updated)
    split <;> next after => rwa [after] at others

theorem heldBy_written {visits : List Json} (objects : ∀ visit ∈ visits, visit.isObject = true) {store : σ}
    (taken : (KeyValueStore.set store Key.recent (.arr visits)).1 = .ok ()) :
    HeldBy visits (written visits store) where
  objects := objects
  held := .inl (ReliableStore.get?_set_self store taken)

theorem HeldBy.add {visits : List Json} {store : σ} (held : HeldBy visits store) {p : Int → Bool}
    (takes : KeyValueStore.Takes σ p) (past : (Json.arr visits).allWhole p = true) {entry name now : Json}
    (named : entry.field? "full_name" = some name) (noted : entry.allWhole p = true) (time : now.allWhole p = true) :
    ∃ updated : List Json, Recent.add store entry now = (.ok updated, written updated store) ∧
      HeldBy updated (written updated store) ∧ (Json.arr updated).allWhole p = true := by
  obtain ⟨latest, entered, object⟩ := exists_visited (Json.isObject_of_field? named) now
  have whole := allWhole_updated (allWhole_visited noted time entered) name past
  have taken := takes store Key.recent _ whole
  exact ⟨_, add_of_stored held.stored held.objects named entered taken,
    heldBy_written (isObject_of_mem_updated object held.objects) taken, whole⟩

end CodeDeck.Recent
