/-!
Mappings from names to values that keep the order in which the names first came. Setting a name that
is present replaces its value in place; a new name goes to the end. Names are of any type whose
equality can be decided.
-/

namespace CodeDeck

abbrev Assoc (κ α : Type) := List (κ × α)

namespace Assoc

variable {κ α : Type} [DecidableEq κ]

def get? (name : κ) : Assoc κ α → Option α
  | [] => none
  | (key, value) :: rest => if key = name then some value else get? name rest

def has (name : κ) (m : Assoc κ α) : Bool := (get? name m).isSome

def set (name : κ) (value : α) : Assoc κ α → Assoc κ α
  | [] => [(name, value)]
  | (key, old) :: rest =>
    if key = name then (key, value) :: rest else (key, old) :: set name value rest

def erase (name : κ) : Assoc κ α → Assoc κ α
  | [] => []
  | (key, value) :: rest => if key = name then rest else (key, value) :: erase name rest

def keys (m : Assoc κ α) : List κ := m.map (·.1)

def values (m : Assoc κ α) : List α := m.map (·.2)

def Distinct (m : Assoc κ α) : Prop := m.keys.Nodup

/-- Of entries with the same name the last one counts. -/
def ofList (entries : List (κ × α)) : Assoc κ α :=
  entries.foldl (fun m entry => set entry.1 entry.2 m) []

@[simp]
theorem get?_nil (name : κ) : get? name ([] : Assoc κ α) = none := rfl

@[simp]
theorem get?_set_self (name : κ) (value : α) (m : Assoc κ α) :
    get? name (set name value m) = some value := by
  induction m with
  | nil => simp [set, get?]
  | cons entry rest ih => by_cases h : entry.1 = name <;> simp [set, get?, h, ih]

@[simp]
theorem get?_set_of_ne {name other : κ} (different : other ≠ name) (value : α) (m : Assoc κ α) :
    get? other (set name value m) = get? other m := by
  induction m with
  | nil => simp [set, get?, different.symm]
  | cons entry rest ih =>
    by_cases h : entry.1 = name
    · simp [set, get?, h, different.symm]
    · simp [set, get?, h, ih]

theorem get?_erase_of_ne {name other : κ} (different : other ≠ name) (m : Assoc κ α) :
    get? other (erase name m) = get? other m := by
  induction m with
  | nil => rfl
  | cons entry rest ih =>
    by_cases h : entry.1 = name
    · simp [erase, get?, h, different.symm]
    · simp [erase, get?, h, ih]

theorem get?_eq_none_iff (name : κ) (m : Assoc κ α) : get? name m = none ↔ name ∉ m.keys := by
  induction m with
  | nil => simp [keys]
  | cons entry rest ih =>
    by_cases h : entry.1 = name
    · simp [get?, keys, h]
    · simpa [get?, keys, h, Ne.symm h, eq_comm] using ih

theorem get?_erase_self {m : Assoc κ α} (distinct : m.Distinct) (name : κ) :
    get? name (erase name m) = none := by
  induction m with
  | nil => rfl
  | cons entry rest ih =>
    have distinct' : entry.1 ∉ rest.map (·.1) ∧ (rest.map (·.1)).Nodup := by
      simpa [Distinct, keys] using distinct
    by_cases h : entry.1 = name
    · subst h
      simpa [erase, get?_eq_none_iff, keys] using distinct'.1
    · simpa [erase, get?, h] using ih distinct'.2

theorem set_of_notMem {name : κ} (value : α) {m : Assoc κ α} (absent : name ∉ m.keys) :
    set name value m = m ++ [(name, value)] := by
  induction m with
  | nil => rfl
  | cons entry rest ih =>
    have absent' : name ≠ entry.1 ∧ name ∉ keys rest := by simpa [keys] using absent
    simp [set, absent'.1.symm, ih absent'.2]

theorem keys_set (name : κ) (value : α) (m : Assoc κ α) :
    keys (set name value m) = if name ∈ keys m then keys m else keys m ++ [name] := by
  induction m with
  | nil => rfl
  | cons entry rest ih =>
    by_cases h : entry.1 = name
    · simp [set, keys, h]
    · have ih' : (set name value rest).map (·.1) =
          if name ∈ rest.map (·.1) then rest.map (·.1) else rest.map (·.1) ++ [name] := ih
      by_cases member : name ∈ rest.map (·.1)
      · simp [set, keys, h, ih', member]
      · simp [set, keys, h, ih', member, Ne.symm h]

theorem distinct_set {m : Assoc κ α} (distinct : m.Distinct) (name : κ) (value : α) :
    (set name value m).Distinct := by
  unfold Distinct
  rw [keys_set]
  split
  · exact distinct
  · next absent =>
    refine List.nodup_append.2 ⟨distinct, by simp, ?_⟩
    intro a inside b last same
    simp only [List.mem_singleton] at last
    exact absent (last ▸ same ▸ inside)

theorem mem_of_get? {name : κ} {value : α} {m : Assoc κ α} (found : get? name m = some value) :
    (name, value) ∈ m := by
  induction m with
  | nil => simp at found
  | cons entry rest ih =>
    by_cases same : entry.1 = name
    · have stored : entry.2 = value := by simpa [get?, same] using found
      rw [← same, ← stored]
      exact List.mem_cons_self
    · have later : get? name rest = some value := by simpa [get?, same] using found
      exact List.mem_cons_of_mem _ (ih later)

theorem mem_values_of_get? {name : κ} {value : α} {m : Assoc κ α} (found : get? name m = some value) :
    value ∈ m.values := List.mem_map_of_mem (mem_of_get? found)

theorem mem_values_set {name : κ} {value held : α} {m : Assoc κ α} (member : held ∈ (set name value m).values) :
    held = value ∨ held ∈ m.values := by
  induction m with
  | nil => exact .inl (List.mem_singleton.1 member)
  | cons entry rest ih =>
    unfold set at member
    split at member
    · exact (List.mem_cons.1 member).imp_right (List.mem_cons_of_mem _)
    · rcases List.mem_cons.1 member with first | later
      · exact .inr (first ▸ List.mem_cons_self)
      · exact (ih later).imp_right (List.mem_cons_of_mem _)

theorem mem_values_foldl_set {entries : List (κ × α)} {m : Assoc κ α} {held : α}
    (member : held ∈ values (entries.foldl (fun m entry => set entry.1 entry.2 m) m)) :
    held ∈ m.values ∨ held ∈ values entries := by
  induction entries generalizing m with
  | nil => exact .inl member
  | cons entry rest ih =>
    rcases ih member with early | later
    · rcases mem_values_set early with first | old
      · exact .inr (first ▸ List.mem_cons_self)
      · exact .inl old
    · exact .inr (List.mem_cons_of_mem _ later)

theorem mem_values_ofList {entries : List (κ × α)} {held : α} (member : held ∈ (ofList entries).values) :
    held ∈ values entries := (mem_values_foldl_set member).resolve_left List.not_mem_nil

theorem get?_of_mem {name : κ} {value : α} {m : Assoc κ α} (distinct : m.Distinct)
    (member : (name, value) ∈ m) : get? name m = some value := by
  induction m with
  | nil => simp at member
  | cons entry rest ih =>
    have names : entry.1 ∉ rest.map (·.1) ∧ (rest.map (·.1)).Nodup := by
      simpa [Distinct, keys] using distinct
    rcases List.mem_cons.1 member with same | later
    · subst same
      simp [get?]
    · have different : entry.1 ≠ name := by
        intro same
        exact names.1 (same ▸ List.mem_map_of_mem later)
      simpa [get?, different] using ih names.2 later

theorem erase_sublist (name : κ) (m : Assoc κ α) : (erase name m).Sublist m := by
  induction m with
  | nil => exact List.Sublist.refl _
  | cons entry rest ih =>
    by_cases same : entry.1 = name
    · simp [erase, same]
    · simpa [erase, same] using ih

theorem distinct_erase {m : Assoc κ α} (distinct : m.Distinct) (name : κ) :
    (erase name m).Distinct :=
  List.Nodup.sublist ((erase_sublist name m).map _) distinct

theorem foldl_set_of_distinct {entries m : Assoc κ α} (distinct : (m ++ entries).Distinct) :
    entries.foldl (fun m entry => set entry.1 entry.2 m) m = m ++ entries := by
  induction entries generalizing m with
  | nil => simp
  | cons entry rest ih =>
    have names : (keys m ++ entry.1 :: keys rest).Nodup := by
      simpa [Distinct, keys] using distinct
    have absent : entry.1 ∉ keys m := by
      intro inside
      exact (List.nodup_append.1 names).2.2 _ inside _ (by simp) rfl
    rw [List.foldl_cons, set_of_notMem entry.2 absent, ih (by simpa [Distinct, keys] using names)]
    simp

theorem ofList_of_distinct {entries : Assoc κ α} (distinct : entries.Distinct) :
    ofList entries = entries := by
  simpa [ofList] using foldl_set_of_distinct (m := []) distinct

theorem distinct_ofList (entries : List (κ × α)) : (ofList entries).Distinct := by
  suffices h : ∀ m : Assoc κ α, m.Distinct →
      (entries.foldl (fun m entry => set entry.1 entry.2 m) m).Distinct from h [] (by simp [Distinct, keys])
  induction entries with
  | nil => exact fun m distinct => distinct
  | cons entry rest ih => exact fun m distinct => ih _ (distinct_set distinct entry.1 entry.2)

end Assoc

end CodeDeck
