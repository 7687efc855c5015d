import CodeDeck.Proofs.Recent
import Mathlib.Data.List.Induction
import Mathlib.Data.List.Nodup

/-! What is left of a history of visits. A visit takes the place of an older one to the same repository, and the list is
cut off behind each visit. That loses nothing: the list is always the front of the one that is never cut off, and that one
holds the visits that no later one to the same repository replaces, the latest first. -/

namespace CodeDeck.Recent

/-- A visit as it is added: the note, which names the repository, and the time. -/
structure Visit where
  note : List (String × Json)
  name : String
  named : Assoc.get? "full_name" note = some (.str name)
  time : Json

def Visit.entry (v : Visit) : Json := .obj (Assoc.set "last_visited" v.time v.note)

theorem Visit.field?_entry (v : Visit) : v.entry.field? "full_name" = some (.str v.name) := by
  have different : "full_name" ≠ "last_visited" := by decide
  exact (Assoc.get?_set_of_ne different v.time v.note).trans v.named

/-- The visits of a history that no later visit to the same repository replaces, in the order of the history. -/
def standing : List Visit → List Visit
  | [] => []
  | v :: later => if v.name ∈ later.map Visit.name then standing later else v :: standing later

def without (name : String) (visits : List Visit) : List Visit := visits.filter fun v => v.name ≠ name

section Standing

variable {name : String}

theorem without_cons_self {v : Visit} (same : v.name = name) (rest : List Visit) :
    without name (v :: rest) = without name rest := by
  simp [without, same]

theorem without_cons_of_ne {v : Visit} (different : v.name ≠ name) (rest : List Visit) :
    without name (v :: rest) = v :: without name rest := by
  simp [without, different]

theorem without_of_notMem {visits : List Visit} (new : name ∉ visits.map Visit.name) : without name visits = visits := by
  refine List.filter_eq_self.2 fun v member => decide_eq_true fun same => ?_
  exact new (same ▸ List.mem_map_of_mem member)

theorem standing_append (past : List Visit) (v : Visit) :
    standing (past ++ [v]) = without v.name (standing past) ++ [v] := by
  induction past with
  | nil => rfl
  | cons old rest ih =>
    rw [List.cons_append, standing, standing, ih, List.map_append, List.map_singleton]
    by_cases replaced : old.name ∈ rest.map Visit.name
    · rw [if_pos replaced, if_pos (List.mem_append_left _ replaced)]
    · rw [if_neg replaced]
      by_cases same : old.name = v.name
      · rw [if_pos (List.mem_append_right _ (List.mem_singleton.2 same)), without_cons_self same]
      · have stays : old.name ∉ rest.map Visit.name ++ [v.name] := by
          rw [List.mem_append, List.mem_singleton]
          exact fun either => either.elim replaced same
        rw [if_neg stays, without_cons_of_ne same, List.cons_append]

theorem standing_sublist (log : List Visit) : (standing log).Sublist log := by
  induction log with
  | nil => exact .refl _
  | cons v later ih =>
    rw [standing]
    split
    · exact ih.cons v
    · exact ih.cons_cons v

theorem nodup_standing (log : List Visit) : ((standing log).map Visit.name).Nodup := by
  induction log with
  | nil => exact .nil
  | cons v later ih =>
    rw [standing]
    split
    · exact ih
    · next last =>
      rw [List.map_cons, List.nodup_cons]
      exact ⟨fun member => last (((standing_sublist later).map _).subset member), ih⟩

end Standing

section Cutting

/-- Where at most one visit is taken out, one visit more than is wanted is enough to look at. -/
theorem take_without_take {visits : List Visit} (distinct : (visits.map Visit.name).Nodup) (name : String) (n : Nat) :
    (without name (visits.take (n + 1))).take n = (without name visits).take n := by
  induction visits generalizing n with
  | nil => rfl
  | cons v rest ih =>
    obtain ⟨new, distinct'⟩ := List.nodup_cons.1 distinct
    rw [List.take_succ_cons]
    by_cases same : v.name = name
    · subst same
      have fewer : v.name ∉ (rest.take n).map Visit.name := fun member =>
        new (((List.take_sublist n rest).map _).subset member)
      rw [without_cons_self rfl, without_cons_self rfl, without_of_notMem fewer, without_of_notMem new,
        List.take_take, Nat.min_self]
    · rw [without_cons_of_ne same, without_cons_of_ne same]
      cases n with
      | zero => rfl
      | succ n => rw [List.take_succ_cons, List.take_succ_cons, ih distinct' n]

theorem elsewhere_entries (name : String) (visits : List Visit) :
    elsewhere (.str name) (visits.map Visit.entry) = (without name visits).map Visit.entry := by
  have differs (v : Visit) : (!((v.entry.field? "full_name").getD .null).same (.str name)) = decide (v.name ≠ name) := by
    rw [v.field?_entry, Option.getD_some, Json.same_str, decide_not]
  simp only [elsewhere, without, List.filter_map, Function.comp_def, differs]

theorem without_reverse (name : String) (visits : List Visit) :
    without name visits.reverse = (without name visits).reverse := List.filter_reverse

def unbounded (log : List Visit) : List Json :=
  log.foldl (fun visits v => v.entry :: elsewhere (.str v.name) visits) []

theorem unbounded_eq (log : List Visit) : unbounded log = (standing log).reverse.map Visit.entry := by
  induction log using List.reverseRecOn with
  | nil => rfl
  | append_singleton past v ih =>
    have step : unbounded (past ++ [v]) = v.entry :: elsewhere (.str v.name) (unbounded past) := List.foldl_append
    rw [step, ih, elsewhere_entries, standing_append, List.reverse_append, List.reverse_singleton,
      List.singleton_append, List.map_cons, without_reverse]

def shown (log : List Visit) : List Json := ((standing log).reverse.take capacity).map Visit.entry

/-- What is cut off in front of a visit is not missed behind it. -/
theorem updated_shown (past : List Visit) (v : Visit) :
    updated v.entry (.str v.name) (shown past) = shown (past ++ [v]) := by
  have distinct : ((standing past).reverse.map Visit.name).Nodup := by
    rw [List.map_reverse]
    exact List.nodup_reverse.2 (nodup_standing past)
  have room : capacity = 7 + 1 := rfl
  rw [updated, shown, shown, elsewhere_entries, standing_append, List.reverse_append, List.reverse_singleton,
    List.singleton_append, ← without_reverse, room, List.take_succ_cons, List.take_succ_cons, List.map_cons,
    ← List.map_take, take_without_take distinct]

end Cutting

section Adding

variable {σ : Type} [KeyValueStore σ]

def addAll (store : σ) : List Visit → Except Fault σ
  | [] => .ok store
  | v :: later =>
    match add store (.obj v.note) v.time with
    | (.ok _, store) => addAll store later
    | (.error fault, _) => .error fault

theorem isObject_of_mem_shown (log : List Visit) : ∀ visit ∈ shown log, visit.isObject = true := by
  intro visit member
  obtain ⟨v, _, rfl⟩ := List.mem_map.1 member
  rfl

theorem allWhole_shown {p : Int → Bool} {log : List Visit} (whole : ∀ v ∈ log, v.entry.allWhole p = true) :
    (Json.arr (shown log)).allWhole p = true := by
  rw [Json.allWhole_arr, List.all_eq_true]
  intro visit member
  obtain ⟨v, inside, rfl⟩ := List.mem_map.1 member
  exact whole v ((standing_sublist log).subset (List.mem_reverse.1 (List.mem_of_mem_take inside)))

theorem add_of_shown {store : σ} {past : List Visit} (holds : stored store = .ok (.arr (shown past))) (v : Visit)
    (taken : (KeyValueStore.set store Key.recent (.arr (shown (past ++ [v])))).1 = .ok ()) :
    add store (.obj v.note) v.time = (.ok (shown (past ++ [v])), written (shown (past ++ [v])) store) := by
  have named : (Json.obj v.note).field? "full_name" = some (.str v.name) := v.named
  rw [← updated_shown] at taken ⊢
  exact add_of_stored holds (isObject_of_mem_shown past) named rfl taken

variable [ReliableStore σ]

theorem addAll_of_shown {store : σ} {past : List Visit} (holds : stored store = .ok (.arr (shown past)))
    {later : List Visit} {p : Int → Bool} (takes : KeyValueStore.Takes σ p)
    (whole : ∀ v ∈ past ++ later, v.entry.allWhole p = true) :
    ∃ left, addAll store later = .ok left ∧ stored left = .ok (.arr (shown (past ++ later))) := by
  induction later generalizing store past with
  | nil => exact ⟨store, rfl, by rwa [List.append_nil]⟩
  | cons v rest ih =>
    rw [List.append_cons] at whole ⊢
    have taken := takes store Key.recent _ (allWhole_shown fun w member => whole w (List.mem_append_left _ member))
    obtain ⟨left, done, held⟩ := ih (heldBy_written (isObject_of_mem_shown _) taken).stored whole
    refine ⟨left, ?_, held⟩
    rw [addAll, add_of_shown holds v taken]
    exact done

end Adding

def Visit.of (name : String) (time : Int) : Visit where
  note := [("full_name", .str name)]
  name := name
  named := if_pos rfl
  time := .int time

def tour : List Visit :=
  [.of "o/a" 1, .of "o/b" 2, .of "o/c" 3, .of "o/d" 4, .of "o/e" 5, .of "o/f" 6, .of "o/g" 7, .of "o/h" 8, .of "o/i" 9,
    .of "o/a" 10]

end CodeDeck.Recent
