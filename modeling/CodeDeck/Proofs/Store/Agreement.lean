import CodeDeck.Proofs.Store
import CodeDeck.Store.Database
import Mathlib.Data.List.Induction

/-! What stores answer. A store refuses some calls by what they say, and a refused call changes nothing; in a store that
was empty at first, the answer to any other call follows from those taken before it. A memory refuses only what cannot be
written, and a database also what cannot be encoded. Apart from that they answer alike, however often the database is
closed and opened again, and the database lists the keys that have been set and not deleted since. -/

namespace CodeDeck

open CodeDeck.Text

namespace StoreCall

section Calls

variable {τ : Type} [DecidableEq τ]

def isWritable : StoreCall τ → Bool
  | get _ => true
  | set _ value => value.isWritable
  | delete _ => true

def leaves (key : τ) (held : Option (Json τ)) : StoreCall τ → Option (Json τ)
  | get _ => held
  | set other value => if other = key then some value else held
  | delete other => if other = key then none else held

def leftUnder (key : τ) (calls : List (StoreCall τ)) : Option (Json τ) := calls.foldl (leaves key) none

/-- The answer to a call behind those of the past. A key that holds nothing reads as null. -/
def answerAfter (past : List (StoreCall τ)) : StoreCall τ → Json τ
  | get key => (leftUnder key past).getD .null
  | set _ _ => .null
  | delete _ => .null

def answersAfter (refusal? : StoreCall τ → Option Fault) :
    (past : List (StoreCall τ)) → List (StoreCall τ) → List (Except Fault (Json τ))
  | _, [] => []
  | past, c :: rest =>
    match refusal? c with
    | some fault => .error fault :: answersAfter refusal? past rest
    | none => .ok (answerAfter past c) :: answersAfter refusal? (past ++ [c]) rest

def Holds (calls : List (StoreCall τ)) (key : τ) : Prop :=
  ∃ before value after, calls = before ++ set key value :: after ∧ delete key ∉ after

theorem leftUnder_concat (key : τ) (past : List (StoreCall τ)) (c : StoreCall τ) :
    leftUnder key (past ++ [c]) = leaves key (leftUnder key past) c := by
  rw [leftUnder, List.foldl_append]
  rfl

omit [DecidableEq τ] in
theorem holds_concat_iff (past : List (StoreCall τ)) (c : StoreCall τ) (key : τ) :
    Holds (past ++ [c]) key ↔ (∃ value, c = set key value) ∨ Holds past key ∧ c ≠ delete key := by
  constructor
  · rintro ⟨before, value, after, whole, kept⟩
    rcases List.eq_nil_or_concat after with rfl | ⟨front, last, rfl⟩
    · have same : past ++ [c] = before ++ [set key value] := whole
      exact .inl ⟨value, List.singleton_inj.1 (List.append_inj' same rfl).2⟩
    · rw [List.concat_eq_append] at whole kept
      rw [← List.cons_append, ← List.append_assoc] at whole
      obtain ⟨same, final⟩ := List.append_inj' whole rfl
      obtain rfl : c = last := List.singleton_inj.1 final
      rw [List.mem_append, not_or, List.mem_singleton] at kept
      exact .inr ⟨⟨before, value, front, same, kept.1⟩, Ne.symm kept.2⟩
  · rintro (⟨value, rfl⟩ | ⟨⟨before, value, after, rfl, kept⟩, other⟩)
    · exact ⟨past, value, [], rfl, List.not_mem_nil⟩
    · refine ⟨before, value, after ++ [c], by simp, ?_⟩
      rw [List.mem_append, not_or, List.mem_singleton]
      exact ⟨kept, other.symm⟩

theorem isSome_leftUnder_iff (key : τ) (calls : List (StoreCall τ)) :
    (leftUnder key calls).isSome = true ↔ Holds calls key := by
  -- on the last call
  induction calls using List.reverseRecOn with
  | nil =>
    constructor
    · intro found
      contradiction
    · rintro ⟨before, value, after, whole, _⟩
      simp at whole
  | append_singleton past c ih =>
    rw [leftUnder_concat, holds_concat_iff, ← ih]
    cases c with
    | get other => simp [leaves]
    | set other value => by_cases same : other = key <;> simp [leaves, same]
    | delete other => by_cases same : other = key <;> simp [leaves, same]

end Calls

end StoreCall

/-- What a store does with a call that it refuses, and, as long as it is in order, with one that it takes. -/
class AnsweringStore (σ τ : Type) [KeyValueStore σ τ] [ReliableStore σ τ] where
  refusal? : StoreCall τ → Option Fault
  Orderly : σ → Prop
  perform_refused (store : σ) {c : StoreCall τ} {fault : Fault} (refused : refusal? c = some fault) :
    c.perform store = (.error fault, store)
  set_taken (store : σ) {key : τ} {value : Json τ} (taken : refusal? (.set key value) = none) :
    (KeyValueStore.set store key value).1 = .ok ()
  orderly_set {store : σ} (orderly : Orderly store) (key : τ) (value : Json τ) :
    Orderly (KeyValueStore.set store key value).2
  delete_taken {store : σ} (orderly : Orderly store) {key : τ} (taken : refusal? (.delete key) = none) :
    (KeyValueStore.delete store key).1 = .ok () ∧
      KeyValueStore.get? (KeyValueStore.delete store key).2 key = .ok none
  orderly_delete {store : σ} (orderly : Orderly store) (key : τ) : Orderly (KeyValueStore.delete store key).2
  get?_delete_of_ne (store : σ) {key other : τ} (different : other ≠ key) :
    KeyValueStore.get? (KeyValueStore.delete store key).2 other = KeyValueStore.get? store other

namespace StoreCall

section Answers

variable {σ τ : Type} [DecidableEq τ] [KeyValueStore σ τ] [ReliableStore σ τ] [AnsweringStore σ τ]

/-- The store is in order, and shows under each key that it takes what the calls have left there. -/
structure Shows (past : List (StoreCall τ)) (store : σ) : Prop where
  orderly : AnsweringStore.Orderly τ store
  shown : ∀ key, AnsweringStore.refusal? σ (.get key) = none →
    KeyValueStore.get? store key = .ok (leftUnder key past)

theorem Shows.taken {past : List (StoreCall τ)} {store : σ} (shows : Shows past store) {c : StoreCall τ}
    (taken : AnsweringStore.refusal? σ c = none) :
    (c.perform store).1 = .ok (answerAfter past c) ∧ Shows (past ++ [c]) (c.perform store).2 := by
  cases c with
  | get key =>
    constructor
    · simp only [StoreCall.perform, KeyValueStore.read, shows.shown key taken]
      rfl
    · refine ⟨shows.orderly, fun other free => ?_⟩
      rw [leftUnder_concat]
      exact shows.shown other free
  | set key value =>
    have done := AnsweringStore.set_taken store taken
    constructor
    · simp only [StoreCall.perform, done]
      rfl
    · refine ⟨AnsweringStore.orderly_set shows.orderly key value, fun other free => ?_⟩
      rw [leftUnder_concat, leaves]
      by_cases same : key = other
      · rw [if_pos same, ← same]
        exact ReliableStore.get?_set_self store done
      · rw [if_neg same, ← shows.shown other free]
        exact ReliableStore.get?_set_of_ne store (Ne.symm same) value
  | delete key =>
    obtain ⟨done, gone⟩ := AnsweringStore.delete_taken shows.orderly taken
    constructor
    · simp only [StoreCall.perform, done]
      rfl
    · refine ⟨AnsweringStore.orderly_delete shows.orderly key, fun other free => ?_⟩
      rw [leftUnder_concat, leaves]
      by_cases same : key = other
      · rw [if_pos same, ← same]
        exact gone
      · rw [if_neg same, ← shows.shown other free]
        exact AnsweringStore.get?_delete_of_ne store (Ne.symm same)

def takenBy (σ : Type) {τ : Type} [KeyValueStore σ τ] [ReliableStore σ τ] [AnsweringStore σ τ]
    (calls : List (StoreCall τ)) : List (StoreCall τ) :=
  calls.filter fun c => (AnsweringStore.refusal? σ c).isNone

theorem Shows.perform {past : List (StoreCall τ)} {store : σ} (shows : Shows (takenBy σ past) store)
    (c : StoreCall τ) : Shows (takenBy σ (past ++ [c])) (c.perform store).2 := by
  rw [takenBy, List.filter_append]
  cases verdict : AnsweringStore.refusal? σ c with
  | none =>
    rw [List.filter_cons_of_pos (by rw [verdict]; rfl), List.filter_nil]
    exact (shows.taken verdict).2
  | some fault =>
    rw [AnsweringStore.perform_refused store verdict, List.filter_cons_of_neg (by rw [verdict]; exact Bool.false_ne_true),
      List.filter_nil, List.append_nil]
    exact shows

theorem Shows.answers {past : List (StoreCall τ)} {store : σ} (shows : Shows past store)
    (calls : List (StoreCall τ)) :
    StoreCall.answers store calls = answersAfter (AnsweringStore.refusal? σ) past calls := by
  induction calls generalizing past store with
  | nil => rfl
  | cons c rest ih =>
    rw [StoreCall.answers, answersAfter]
    cases verdict : AnsweringStore.refusal? σ c with
    | some fault =>
      rw [AnsweringStore.perform_refused store verdict]
      simp only
      rw [ih shows]
    | none =>
      obtain ⟨answered, later⟩ := shows.taken verdict
      simp only
      rw [answered, ih later]

end Answers

end StoreCall

namespace MemoryOf

variable {τ : Type}

/-- A memory refuses what cannot be written. -/
def refusal? (c : StoreCall τ) : Option Fault := if c.isWritable then none else some .unwritableNumber

theorem refusal?_eq_none_iff {c : StoreCall τ} : refusal? c = none ↔ c.isWritable = true := by
  rw [refusal?]
  split
  · next writable => exact ⟨fun _ => writable, fun _ => rfl⟩
  · next unwritable => exact ⟨nofun, fun writable => absurd writable unwritable⟩

theorem of_refused {c : StoreCall τ} {fault : Fault} (refused : refusal? c = some fault) :
    c.isWritable = false ∧ fault = .unwritableNumber := by
  rw [refusal?] at refused
  split at refused
  · exact nomatch refused
  · next unwritable => exact ⟨eq_false_of_ne_true unwritable, (Option.some.inj refused).symm⟩

instance [DecidableEq τ] : AnsweringStore (MemoryOf τ) τ where
  refusal? := refusal?
  Orderly m := m.entries.Distinct
  perform_refused m c fault refused := by
    obtain ⟨unwritable, rfl⟩ := of_refused refused
    cases c with
    | set key value =>
      rcases m.set_cases key value with ⟨writable, _⟩ | ⟨_, after⟩
      · exact nomatch writable.symm.trans unwritable
      · rw [StoreCall.perform, after]
        rfl
    | get key => exact nomatch unwritable
    | delete key => exact nomatch unwritable
  set_taken m key value taken := m.taken_of_isWritable key value (refusal?_eq_none_iff.1 taken)
  orderly_set {m} distinct key value := by
    rcases m.set_cases key value with ⟨_, after⟩ | ⟨_, after⟩
    · rw [after]
      exact Assoc.distinct_set distinct key value
    · rwa [after]
  delete_taken distinct _ _ := ⟨rfl, congrArg Except.ok (Assoc.get?_erase_self distinct _)⟩
  orderly_delete distinct key := Assoc.distinct_erase distinct key
  get?_delete_of_ne m _ _ different := congrArg Except.ok (Assoc.get?_erase_of_ne different m.entries)

end MemoryOf

namespace Table

theorem mem_keys_iff (lead key : String) (t : Table) :
    key ∈ t.keys lead ↔ lead.toList <+: key.toList ∧ (t.get? key).isSome = true := by
  rw [keys, List.mem_filter, List.isPrefixOf_iff_prefix, and_comm, Option.isSome_iff_ne_none, get?, Ne,
    Assoc.get?_eq_none_iff, Classical.not_not]
  rfl

theorem Sorted.keys {t : Table} (sorted : t.Sorted) (lead : String) : (t.keys lead).Pairwise (· < ·) :=
  List.Pairwise.filter _ (List.pairwise_map.2 sorted)

end Table

namespace Text.LooseText

theorem ofString_prefix_iff {front s : String} :
    ofString front <+: ofString s ↔ front.toList <+: s.toList  :=
  List.prefix_map_iff_of_injective fun _ _ same => CodePoint.scalar.inj same

theorem eq_ofString_of_prefix {front : LooseText} {s : String} (inside : front <+: ofString s) :
    ∃ text, front = ofString text := by
  obtain ⟨chars, _, rfl⟩ := List.prefix_map_iff.1 inside
  exact ⟨String.ofList chars, by rw [ofString, String.toList_ofList]⟩

end Text.LooseText

def StoreCall.isEncodable : StoreCall LooseText → Bool
  | get key => key.string?.isSome
  | set key value => key.string?.isSome && value.encoded?.isSome
  | delete key => key.string?.isSome

namespace Database

open StoreCall

/-- A database refuses what cannot be written, and of the rest what cannot be encoded. -/
def refusal? (c : StoreCall LooseText) : Option Fault :=
  if c.isWritable then if c.isEncodable then none else some .loneSurrogate else some .unwritableNumber

theorem refusal?_eq_none_iff {c : StoreCall LooseText} :
    refusal? c = none ↔ c.isWritable = true ∧ c.isEncodable = true := by
  rw [refusal?]
  cases c.isWritable <;> cases c.isEncodable <;> simp

structure Settled (d : Database) : Prop where
  committed : d.file = some d.table
  sorted : d.table.Sorted

theorem settled_connect : (connect none).Settled where
  committed := rfl
  sorted := List.Pairwise.nil

theorem Settled.reopen {d : Database} (settled : d.Settled) : d.reopen = d := by
  obtain ⟨file, table⟩ := d
  obtain rfl : file = some table := settled.committed
  rfl

section Calls

variable (d : Database) (key : LooseText) (value : Json LooseText)

theorem get?_of_string? {key : LooseText} {name : String} (named : key.string? = some name) :
    d.get? key = .ok ((d.table.get? name).map Json.loose) := by
  rw [get?, named]

theorem set_cases :
    (∃ name row, refusal? (.set key value) = none ∧ key.string? = some name ∧ value.encoded? = some row ∧
      d.set key value = (.ok (), commit { d with table := d.table.set name row })) ∨
    ∃ fault, refusal? (.set key value) = some fault ∧ d.set key value = (.error fault, d) := by
  rw [refusal?, set, isWritable, isEncodable]
  cases value.isWritable with
  | false => exact .inr ⟨_, rfl, rfl⟩
  | true =>
    cases key.string? with
    | none => exact .inr ⟨_, rfl, rfl⟩
    | some name =>
      cases value.encoded? with
      | none => exact .inr ⟨_, rfl, rfl⟩
      | some row => exact .inl ⟨name, row, rfl, rfl, rfl, rfl⟩

theorem delete_cases :
    (∃ name, key.string? = some name ∧
      d.delete key = (.ok (), commit { d with table := d.table.delete name })) ∨
    key.string? = none ∧ d.delete key = (.error .loneSurrogate, d) := by
  rw [delete]
  cases key.string? with
  | none => exact .inr ⟨rfl, rfl⟩
  | some name => exact .inl ⟨name, rfl, rfl⟩

theorem get?_commit_of_ne {other : LooseText} {name : String} (named : key.string? = some name) (table : Table)
    (kept : ∀ row, row ≠ name → table.get? row = d.table.get? row) (different : other ≠ key) :
    (commit { d with table := table }).get? other = d.get? other := by
  cases read : other.string? with
  | none => rw [get?, get?, read]
  | some row =>
    have apart : row ≠ name := by
      rintro rfl
      exact different ((LooseText.string?_eq_some_iff.1 read).trans (LooseText.string?_eq_some_iff.1 named).symm)
    rw [get?_of_string? _ read, get?_of_string? _ read, ← kept row apart]
    rfl

end Calls

instance : ReliableStore Database LooseText where
  get?_set_self d key value taken := by
    change (d.set key value).1 = .ok () at taken
    change (d.set key value).2.get? key = .ok (some value)
    obtain ⟨name, row, _, named, encoded, after⟩ | ⟨fault, _, after⟩ := d.set_cases key value
    · have shown : (d.table.set name row).get? name = some row := Table.get?_set_self name row d.table
      rw [after, get?_of_string? _ named, Json.eq_loose_of_encoded? encoded]
      exact congrArg (fun found : Option Json => Except.ok (found.map Json.loose)) shown
    · rw [after] at taken
      exact nomatch taken
  get?_set_of_ne d key other different value := by
    change (d.set key value).2.get? other = d.get? other
    obtain ⟨name, row, _, named, _, after⟩ | ⟨fault, _, after⟩ := d.set_cases key value
    · rw [after]
      exact get?_commit_of_ne d key named _ (fun _ apart => Table.get?_set_of_ne apart row d.table) different
    · rw [after]

instance : AnsweringStore Database LooseText where
  refusal? := refusal?
  Orderly := Settled
  perform_refused d c fault refused := by
    cases c with
    | get key =>
      change ((d.get? key).map (·.getD .null), d) = (.error fault, d)
      rw [refusal?, isWritable, isEncodable] at refused
      rw [Database.get?]
      cases named : key.string? with
      | some name => simp [named] at refused
      | none =>
        obtain rfl : Fault.loneSurrogate = fault := by simpa [named] using refused
        rfl
    | set key value =>
      change ((d.set key value).1.map fun _ => Json.null, (d.set key value).2) = (.error fault, d)
      obtain ⟨_, _, free, _⟩ | ⟨found, same, after⟩ := d.set_cases key value
      · exact nomatch free.symm.trans refused
      · obtain rfl := Option.some.inj (same.symm.trans refused)
        rw [after]
        rfl
    | delete key =>
      change ((d.delete key).1.map fun _ => Json.null, (d.delete key).2) = (.error fault, d)
      rw [refusal?, isWritable, isEncodable] at refused
      obtain ⟨name, named, _⟩ | ⟨unnamed, after⟩ := d.delete_cases key
      · simp [named] at refused
      · obtain rfl : Fault.loneSurrogate = fault := by simpa [unnamed] using refused
        rw [after]
        rfl
  set_taken d key value taken := by
    obtain ⟨name, row, _, _, _, after⟩ | ⟨fault, refused, _⟩ := d.set_cases key value
    · exact congrArg Prod.fst after
    · exact nomatch refused.symm.trans taken
  orderly_set {d} settled key value := by
    change (d.set key value).2.Settled
    obtain ⟨name, row, _, _, _, after⟩ | ⟨fault, _, after⟩ := d.set_cases key value
    · rw [after]
      exact ⟨rfl, Table.sorted_set settled.sorted name row⟩
    · rwa [after]
  delete_taken {d} settled key taken := by
    obtain ⟨name, named, after⟩ | ⟨unnamed, _⟩ := d.delete_cases key
    · constructor
      · exact congrArg Prod.fst after
      · change (d.delete key).2.get? key = .ok none
        have gone : (d.table.delete name).get? name = none := Table.get?_delete_self settled.sorted name
        rw [after, get?_of_string? _ named]
        exact congrArg (fun found : Option Json => Except.ok (found.map Json.loose)) gone
    · have encodable : key.string?.isSome = true := (refusal?_eq_none_iff.1 taken).2
      rw [unnamed] at encodable
      exact nomatch encodable
  orderly_delete {d} settled key := by
    change (d.delete key).2.Settled
    obtain ⟨name, _, after⟩ | ⟨_, after⟩ := d.delete_cases key
    · rw [after]
      exact ⟨rfl, Table.sorted_delete settled.sorted name⟩
    · rwa [after]
  get?_delete_of_ne d key other different := by
    change (d.delete key).2.get? other = d.get? other
    obtain ⟨name, named, after⟩ | ⟨_, after⟩ := d.delete_cases key
    · rw [after]
      exact get?_commit_of_ne d key named _ (fun _ apart => Table.get?_delete_of_ne apart d.table) different
    · rw [after]

theorem answers_eq {past : List (StoreCall LooseText)} {d : Database} (shows : Shows (takenBy Database past) d)
    (steps : List Step) : d.answers steps = StoreCall.answers d (steps.filterMap Step.call?) := by
  induction steps generalizing past d with
  | nil => rfl
  | cons step rest ih =>
    cases step with
    | call c =>
      have own : Step.call? (.call c) = some c := rfl
      have later := ih (shows.perform c)
      rw [answers, List.filterMap_cons_some own, StoreCall.answers, Step.perform, later]
    | reopen =>
      have none : Step.call? .reopen = none := rfl
      have same : d.reopen = d := Settled.reopen shows.orderly
      rw [answers, List.filterMap_cons_none none, Step.perform, same]
      exact ih shows

theorem run_shows {past : List (StoreCall LooseText)} {d : Database} (shows : Shows (takenBy Database past) d)
    (steps : List Step) : Shows (takenBy Database (past ++ steps.filterMap Step.call?)) (d.run steps) := by
  induction steps generalizing past d with
  | nil =>
    rw [List.filterMap_nil, List.append_nil]
    exact shows
  | cons step rest ih =>
    cases step with
    | call c =>
      have later := ih (shows.perform c)
      rw [List.append_assoc] at later
      exact later
    | reopen =>
      have same : d.reopen = d := Settled.reopen shows.orderly
      have later := ih shows
      rwa [← same] at later

theorem mem_keys_iff (lead : LooseText) (key : String) (d : Database) :
    key ∈ d.keys lead ↔ lead <+: LooseText.ofString key ∧ (d.table.get? key).isSome = true := by
  cases read : lead.string? with
  | some front =>
    obtain rfl := LooseText.string?_eq_some_iff.1 read
    rw [keys, read, Option.map_some, Option.getD_some, Table.mem_keys_iff, LooseText.ofString_prefix_iff]
  | none =>
    rw [keys, read]
    refine ⟨nofun, fun ⟨inside, _⟩ => ?_⟩
    obtain ⟨front, rfl⟩ := LooseText.eq_ofString_of_prefix inside
    exact nomatch read.symm.trans (LooseText.string?_eq_some_iff.2 rfl)

theorem Settled.keys {d : Database} (settled : d.Settled) (lead : LooseText) : (d.keys lead).Pairwise (· < ·) := by
  rw [Database.keys]
  cases lead.string? with
  | some front => exact Table.Sorted.keys settled.sorted front
  | none => exact List.Pairwise.nil

theorem answersAfter_eq_iff (past calls : List (StoreCall LooseText)) :
    answersAfter refusal? past calls = answersAfter MemoryOf.refusal? past calls ↔
      ∀ c ∈ calls, c.isWritable = true → c.isEncodable = true := by
  induction calls generalizing past with
  | nil => simp [answersAfter]
  | cons c rest ih =>
    rw [List.forall_mem_cons]
    simp only [answersAfter, refusal?, MemoryOf.refusal?]
    cases c.isWritable with
    | false => simp [ih]
    | true => cases c.isEncodable <;> simp [ih]

theorem shows_memory : Shows ([] : List (StoreCall LooseText)) ({} : MemoryOf LooseText) where
  orderly := List.nodup_nil
  shown _ _ := rfl

theorem shows_connect : Shows (takenBy Database ([] : List (StoreCall LooseText))) (connect none) where
  orderly := settled_connect
  shown key taken := by
    have encodable : key.string?.isSome = true := (refusal?_eq_none_iff.1 taken).2
    obtain ⟨name, named⟩ := Option.isSome_iff_exists.1 encodable
    exact get?_of_string? _ named

/-- The answers of an empty memory and of a new database follow from the calls and from what each of them refuses,
however often the database is reopened in between. They are the same exactly if every call that can be written can also
be encoded. Behind all steps the database lists the keys that have been set and not deleted since by the calls it took,
in their order and none of them twice. -/
theorem run_agrees_iff (steps : List Step) :
    let calls := steps.filterMap Step.call?
    StoreCall.answers ({} : MemoryOf LooseText) calls = answersAfter MemoryOf.refusal? [] calls ∧
    (connect none).answers steps = answersAfter refusal? [] calls ∧
    ((connect none).answers steps = StoreCall.answers ({} : MemoryOf LooseText) calls ↔
      ∀ c ∈ calls, c.isWritable = true → c.isEncodable = true) ∧
    ∀ lead, (((connect none).run steps).keys lead).Pairwise (· < ·) ∧
      ∀ key, key ∈ ((connect none).run steps).keys lead ↔
        lead <+: LooseText.ofString key ∧ Holds (takenBy Database calls) (.ofString key) := by
  intro calls
  have remembered : StoreCall.answers ({} : MemoryOf LooseText) calls = answersAfter MemoryOf.refusal? [] calls :=
    shows_memory.answers calls
  have answered : (connect none).answers steps = answersAfter refusal? [] calls := by
    rw [answers_eq shows_connect]
    exact shows_connect.answers calls
  refine ⟨remembered, answered, ?_, fun lead => ?_⟩
  · rw [remembered, answered]
    exact answersAfter_eq_iff [] calls
  · have behind : Shows (takenBy Database calls) ((connect none).run steps) := run_shows shows_connect steps
    constructor
    · exact behind.orderly.keys lead
    · intro key
      have named : (LooseText.ofString key).string? = some key := LooseText.string?_eq_some_iff.2 rfl
      have free : refusal? (.get (.ofString key)) = none :=
        refusal?_eq_none_iff.2 ⟨rfl, Option.isSome_iff_exists.2 ⟨key, named⟩⟩
      have shown := (get?_of_string? _ named).symm.trans (behind.shown _ free)
      have held : (((connect none).run steps).table.get? key).isSome =
          (leftUnder (LooseText.ofString key) (takenBy Database calls)).isSome := by
        rw [← Except.ok.inj shown, Option.isSome_map]
      rw [mem_keys_iff, held, isSome_leftUnder_iff]

/-- A key that is a surrogate reads as null from a memory. -/
theorem surrogate_tells_apart :
    (connect none).answers [.call (.get [CodePoint.surrogate 0])] = [.error .loneSurrogate] ∧
    StoreCall.answers ({} : MemoryOf LooseText) [.get [CodePoint.surrogate 0]] = [.ok .null] :=
  ⟨rfl, rfl⟩

end Database

end CodeDeck
