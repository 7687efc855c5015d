import CodeDeck.Proofs.Json.Limits
import CodeDeck.Store.Memory
import CodeDeck.Store.Table

/-! Stores that keep what they have taken: a value that was written is read back, and a write leaves the values
under other keys as they were. The table of a database is such a store, and so is the memory; both take every value
that can be written. -/

namespace CodeDeck

class ReliableStore (σ : Type) (τ : Type := String) [KeyValueStore σ τ] : Prop where
  get?_set_self (store : σ) {key : τ} {value : Json τ} (taken : (KeyValueStore.set store key value).1 = .ok ()) :
    KeyValueStore.get? (KeyValueStore.set store key value).2 key = .ok (some value)
  get?_set_of_ne (store : σ) {key other : τ} (different : other ≠ key) (value : Json τ) :
    KeyValueStore.get? (KeyValueStore.set store key value).2 other = KeyValueStore.get? store other

namespace KeyValueStore

section Written

variable {σ τ : Type} {value : Json τ} {store after : σ}

theorem written_eq_of_isWritable (writable : value.isWritable = true) :
    written value store after = (.ok (), after) := if_pos writable

theorem written_cases (value : Json τ) (store after : σ) :
    value.isWritable = true ∧ written value store after = (.ok (), after) ∨
      value.isWritable = false ∧ written value store after = (.error .unwritableNumber, store) := by
  cases writable : value.isWritable with
  | true => exact .inl ⟨rfl, written_eq_of_isWritable writable⟩
  | false => exact .inr ⟨rfl, by simp [written, writable]⟩

end Written

/-- Does every store of the type take all values whose whole numbers pass? -/
def Takes (σ : Type) [KeyValueStore σ] (whole : Int → Bool) : Prop :=
  ∀ (store : σ) (key : String) (value : Json), value.allWhole whole = true →
    (KeyValueStore.set store key value).1 = .ok ()

def TakesWritable (σ : Type) [KeyValueStore σ] : Prop := Takes σ fun n => Number.fitsDigits Number.maxDigits n.natAbs

def upTo (n : Nat) (k : Int) : Bool := k.natAbs ≤ n

section Taking

variable {σ : Type} [KeyValueStore σ]

theorem Takes.mono {p q : Int → Bool} (takes : Takes σ q) (weaker : ∀ n, p n = true → q n = true) : Takes σ p :=
  fun store key value held => takes store key value (Json.allWhole_mono weaker value held)

theorem Takes.upTo_mono {m n : Nat} (takes : Takes σ (upTo n)) (fewer : m ≤ n) : Takes σ (upTo m) :=
  takes.mono fun _ small => decide_eq_true (Nat.le_trans (of_decide_eq_true small) fewer)

/-- A store that takes all that can be written takes every count of fewer than `10 ^ maxDigits` things. -/
theorem Takes.upTo_of_fits (takes : TakesWritable σ) {n : Nat} (fits : n < 10 ^ Number.maxDigits) :
    Takes σ (upTo n) := fun store key value held =>
  takes store key value <| Json.allWhole_mono (fun _ small =>
    Number.fitsDigits_iff.2 (Nat.lt_of_le_of_lt (of_decide_eq_true small) fits)) value held

theorem set_eq {store : σ} {key : String} {value : Json} (taken : (KeyValueStore.set store key value).1 = .ok ()) :
    KeyValueStore.set store key value = (.ok (), (KeyValueStore.set store key value).2) :=
  Prod.ext taken rfl

end Taking

end KeyValueStore

open KeyValueStore

namespace MemoryOf

variable {τ : Type} [DecidableEq τ]

theorem set_cases (m : MemoryOf τ) (key : τ) (value : Json τ) :
    value.isWritable = true ∧ KeyValueStore.set m key value = (.ok (), ⟨m.entries.set key value⟩) ∨
      value.isWritable = false ∧ KeyValueStore.set m key value = (.error .unwritableNumber, m) :=
  written_cases value m ⟨m.entries.set key value⟩

theorem taken_of_isWritable (m : MemoryOf τ) (key : τ) (value : Json τ) (writable : value.isWritable = true) :
    (KeyValueStore.set m key value).1 = .ok () :=
  congrArg Prod.fst (written_eq_of_isWritable writable)

instance : ReliableStore (MemoryOf τ) τ where
  get?_set_self m key value taken := by
    rcases m.set_cases key value with ⟨_, after⟩ | ⟨_, after⟩
    · rw [after]
      exact congrArg Except.ok (Assoc.get?_set_self ..)
    · exact nomatch (congrArg Prod.fst after).symm.trans taken
  get?_set_of_ne m key other different value := by
    rcases m.set_cases key value with ⟨_, after⟩ | ⟨_, after⟩
    · rw [after]
      exact congrArg Except.ok (Assoc.get?_set_of_ne different ..)
    · rw [after]

end MemoryOf

namespace Table

theorem set_cases (t : Table) (key : String) (value : Json) :
    value.isWritable = true ∧ KeyValueStore.set t key value = (.ok (), t.set key value) ∨
      value.isWritable = false ∧ KeyValueStore.set t key value = (.error .unwritableNumber, t) :=
  written_cases value t (t.set key value)

theorem taken_of_isWritable (t : Table) (key : String) (value : Json) (writable : value.isWritable = true) :
    (KeyValueStore.set t key value).1 = .ok () :=
  congrArg Prod.fst (written_eq_of_isWritable writable)

instance : ReliableStore Table where
  get?_set_self t key value taken := by
    rcases t.set_cases key value with ⟨_, after⟩ | ⟨_, after⟩
    · rw [after]
      exact congrArg Except.ok (get?_set_self key value t)
    · exact nomatch (congrArg Prod.fst after).symm.trans taken
  get?_set_of_ne t key other different value := by
    rcases t.set_cases key value with ⟨_, after⟩ | ⟨_, after⟩
    · rw [after]
      exact congrArg Except.ok (get?_set_of_ne different value t)
    · rw [after]

theorem get?_set_congr {t t' : Table} {key : String} (same : t.get? key = t'.get? key) (value : Json) :
    (KeyValueStore.set t key value).2.get? key = (KeyValueStore.set t' key value).2.get? key := by
  change (written value t (t.set key value)).2.get? key = (written value t' (t'.set key value)).2.get? key
  unfold written
  split
  · exact (get?_set_self key value t).trans (get?_set_self key value t').symm
  · exact same

def Sorted (t : Table) : Prop := t.rows.Pairwise fun row other => row.1 < other.1

theorem mem_insertRow {key : String} {value : Json} {rows : List (String × Json)}
    {row : String × Json} (member : row ∈ insertRow key value rows) : row.1 = key ∨ row ∈ rows := by
  induction rows with
  | nil => exact .inl (congrArg Prod.fst (List.mem_singleton.1 member))
  | cons first rest ih =>
    unfold insertRow at member
    split at member
    · rcases List.mem_cons.1 member with rfl | later
      · exact .inr List.mem_cons_self
      · exact (ih later).imp_right (List.mem_cons_of_mem _)
    · split at member
      · rcases List.mem_cons.1 member with rfl | later
        · exact .inl rfl
        · exact .inr (List.mem_cons_of_mem _ later)
      · rcases List.mem_cons.1 member with rfl | later
        · exact .inl rfl
        · exact .inr later

theorem sorted_set {t : Table} (sorted : t.Sorted) (key : String) (value : Json) :
    (t.set key value).Sorted := by
  obtain ⟨rows⟩ := t
  simp only [Sorted, set] at sorted ⊢
  induction rows with
  | nil => exact List.pairwise_singleton ..
  | cons first rest ih =>
    obtain ⟨less, sortedRest⟩ := List.pairwise_cons.1 sorted
    unfold insertRow
    split
    · next before =>
      refine List.pairwise_cons.2 ⟨fun row member => ?_, ih sortedRest⟩
      rcases mem_insertRow member with same | old
      · exact same ▸ before
      · exact less row old
    · next notBefore =>
      split
      · next same => exact List.pairwise_cons.2 ⟨same ▸ less, sortedRest⟩
      · next different =>
        have behind : key < first.1 := Classical.byContradiction fun notBehind =>
          different (String.le_antisymm (String.not_lt.1 notBehind) (String.not_lt.1 notBefore))
        refine List.pairwise_cons.2 ⟨fun row member => ?_, sorted⟩
        rcases List.mem_cons.1 member with rfl | later
        · exact behind
        · exact String.lt_trans behind (less row later)

theorem sorted_written {t : Table} (sorted : t.Sorted) (key : String) (value : Json) :
    (KeyValueStore.set t key value).2.Sorted := by
  rcases t.set_cases key value with ⟨_, after⟩ | ⟨_, after⟩
  · rw [after]
    exact sorted_set sorted key value
  · rwa [after]

theorem sorted_delete {t : Table} (sorted : t.Sorted) (key : String) : (t.delete key).Sorted :=
  List.Pairwise.sublist (Assoc.erase_sublist key t.rows) sorted

theorem sorted_ofRows (rows : List (String × Json)) : (ofRows rows).Sorted :=
  List.foldlRecOn rows _ List.Pairwise.nil fun _ sorted row _ => sorted_set sorted row.1 row.2

theorem get?_delete_self {t : Table} (sorted : t.Sorted) (key : String) :
    (t.delete key).get? key = none := by
  refine Assoc.get?_erase_self ?_ key
  exact List.pairwise_map.2 (sorted.imp String.ne_of_lt)

theorem get?_delete_of_ne {key other : String} (different : other ≠ key) (t : Table) :
    (t.delete key).get? other = t.get? other := Assoc.get?_erase_of_ne different t.rows

end Table

/-! The keys of cards, progress, visits and streak differ by how they begin. -/

namespace Key

theorem head?_cards (fullName : String) : (cards fullName).toList.head? = some 'c' := by
  simp [cards, String.toList_append]

theorem head?_progress (fullName : String) : (progress fullName).toList.head? = some 'p' := by
  simp [progress, String.toList_append]

theorem ne_of_head? {key other : String} {c d : Char} (first : key.toList.head? = some c)
    (second : other.toList.head? = some d) (different : c ≠ d) : key ≠ other := by
  rintro rfl
  exact different (Option.some.inj (first.symm.trans second))

theorem cards_ne_streak (fullName : String) : cards fullName ≠ streak :=
  ne_of_head? (head?_cards fullName) rfl (by decide)

theorem cards_ne_recent (fullName : String) : cards fullName ≠ recent :=
  ne_of_head? (head?_cards fullName) rfl (by decide)

theorem progress_ne_streak (fullName : String) : progress fullName ≠ streak :=
  ne_of_head? (head?_progress fullName) rfl (by decide)

theorem progress_ne_recent (fullName : String) : progress fullName ≠ recent :=
  ne_of_head? (head?_progress fullName) rfl (by decide)

theorem cards_ne_progress (fullName other : String) : cards fullName ≠ progress other :=
  ne_of_head? (head?_cards fullName) (head?_progress other) (by decide)

theorem recent_ne_streak : recent ≠ streak := by decide

theorem cards_inj {fullName other : String} (same : cards fullName = cards other) :
    Text.lowerString fullName = Text.lowerString other := by
  have letters := congrArg String.toList same
  simpa [cards, String.toList_append, String.toList_inj] using letters

theorem progress_inj {fullName other : String} (same : progress fullName = progress other) :
    Text.lowerString fullName = Text.lowerString other := by
  have letters := congrArg String.toList same
  simpa [progress, String.toList_append, String.toList_inj] using letters

end Key

end CodeDeck
