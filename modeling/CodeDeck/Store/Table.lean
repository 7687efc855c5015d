import CodeDeck.Store.Basic

/-!
The table of a database: rows with unique keys, held in the order of their keys.
-/

namespace CodeDeck

structure Table where
  rows : List (String × Json) := []

namespace Table

def get? (key : String) (t : Table) : Option Json := Assoc.get? key t.rows

def insertRow (key : String) (value : Json) : List (String × Json) → List (String × Json)
  | [] => [(key, value)]
  | row :: rest =>
    if row.1 < key then row :: insertRow key value rest
    else if row.1 = key then (key, value) :: rest
    else (key, value) :: row :: rest

def set (key : String) (value : Json) (t : Table) : Table := ⟨insertRow key value t.rows⟩

def delete (key : String) (t : Table) : Table := ⟨Assoc.erase key t.rows⟩

def keys (lead : String) (t : Table) : List String :=
  (t.rows.map (·.1)).filter fun key => lead.toList.isPrefixOf key.toList

def ofRows (rows : List (String × Json)) : Table :=
  rows.foldl (fun t row => t.set row.1 row.2) {}

@[simp]
theorem get?_set_self (key : String) (value : Json) (t : Table) :
    (t.set key value).get? key = some value := by
  obtain ⟨rows⟩ := t
  simp only [set, get?]
  induction rows with
  | nil => simp [insertRow, Assoc.get?]
  | cons row rest ih =>
    simp only [insertRow]
    split
    · next less => simpa [Assoc.get?, String.ne_of_lt less] using ih
    · split <;> simp [Assoc.get?]

@[simp]
theorem get?_set_of_ne {key other : String} (different : other ≠ key) (value : Json) (t : Table) :
    (t.set key value).get? other = t.get? other := by
  obtain ⟨rows⟩ := t
  simp only [set, get?]
  induction rows with
  | nil => simp [insertRow, Assoc.get?, different.symm]
  | cons row rest ih =>
    simp only [insertRow]
    split
    · simp [Assoc.get?, ih]
    · split
      · next same => simp [Assoc.get?, same, different.symm]
      · simp [Assoc.get?, different.symm]

end Table

instance : KeyValueStore Table where
  get? t key := .ok (t.get? key)
  set t key value := KeyValueStore.written value t (t.set key value)
  delete t key := (.ok (), t.delete key)

end CodeDeck
