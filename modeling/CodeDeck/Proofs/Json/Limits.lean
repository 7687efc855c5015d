import CodeDeck.Json.Parser
import CodeDeck.Json.Writable
import CodeDeck.Proofs.Json
import Mathlib.Algebra.Group.Int.Defs
import Mathlib.Algebra.Group.Nat.Defs
import Mathlib.Data.List.Induction
import Mathlib.Data.List.TakeWhile

/-! What has been read can be written: the reader refuses whole numbers of as many digits as the writer does. -/

namespace CodeDeck

namespace Number

theorem fitsDigits_iff {count n : Nat} : fitsDigits count n = true ↔ n < 10 ^ count := by
  induction count generalizing n with
  | zero => simp [fitsDigits]
  | succ count ih =>
    have positive : 0 < 10 ^ count := Nat.pow_pos (by decide)
    have shorter : n / 10 < 10 ^ count ↔ n < 10 ^ (count + 1) := by
      rw [Nat.div_lt_iff_lt_mul (by decide), Nat.pow_succ]
    rw [fitsDigits, Bool.or_eq_true, decide_eq_true_eq, ih, shorter, Nat.pow_succ]
    omega

end Number

namespace Json

open Number Text

section Digits

theorem digitsValue_append (digits : List Char) (c : Char) :
    digitsValue (digits ++ [c]) = 10 * digitsValue digits + (c.toNat - 48) := by
  rw [digitsValue, List.foldl_append]
  rfl

theorem toNat_of_isDigit {c : Char} (digit : c.isDigit = true) : c.toNat - 48 < 10 := by
  rw [Char.isDigit, Bool.and_eq_true, decide_eq_true_eq, decide_eq_true_eq] at digit
  have bound : c.toNat ≤ 57 := digit.2
  omega

theorem digitsValue_lt {digits : List Char} (all : ∀ c ∈ digits, c.isDigit = true) :
    digitsValue digits < 10 ^ digits.length := by
  induction digits using List.reverseRecOn with
  | nil => exact Nat.one_pos
  | append_singleton front c ih =>
    have before := ih fun d member => all d (List.mem_append_left _ member)
    have last := toNat_of_isDigit (all c (by simp))
    rw [digitsValue_append, List.length_append, List.length_singleton, Nat.pow_succ]
    omega

theorem wholePart?_digits {s digits rest : List Char} (read : wholePart? s = some (digits, rest)) :
    ∀ c ∈ digits, c.isDigit = true := by
  unfold wholePart? at read
  split at read
  · obtain ⟨rfl, _⟩ := Prod.mk.inj (Option.some.inj read)
    decide
  · split at read
    · obtain ⟨rfl, _⟩ := Prod.mk.inj (Option.some.inj read)
      exact fun c member => List.mem_takeWhile_imp member
    · exact nomatch read
  · exact nomatch read

end Digits

section Reading

variable {τ : Type} {v : Json τ} {rest : List Char}

theorem isWritable_int_iff {n : Int} : (int n : Json τ).isWritable = true ↔ n.natAbs < 10 ^ maxDigits :=
  fitsDigits_iff

theorem isWritable_arr {items : List (Json τ)} : (arr items).isWritable = true ↔ ∀ v ∈ items, v.isWritable = true := by
  rw [isWritable, allWhole_arr, List.all_eq_true]
  rfl

theorem isWritable_obj {fields : List (τ × Json τ)} :
    (obj fields).isWritable = true ↔ ∀ field ∈ fields, field.2.isWritable = true := by
  rw [isWritable, allWhole_obj, List.all_eq_true]
  rfl

theorem isWritable_of_number? {s : List Char} (read : number? s = some (.ok (v, rest))) : v.isWritable = true := by
  unfold number? at read
  obtain ⟨⟨digits, later⟩, whole, read⟩ := Option.bind_eq_some_iff.1 read
  have small := digitsValue_lt (wholePart?_digits whole)
  simp only at read
  split at read
  · split at read
    · exact nomatch Option.some.inj read
    · next few =>
      obtain ⟨rfl, _⟩ := Prod.mk.inj (Except.ok.inj (Option.some.inj read))
      have bound : digitsValue digits < 10 ^ maxDigits :=
        Nat.lt_of_lt_of_le small (Nat.pow_le_pow_right (by decide) (Nat.le_of_not_lt few))
      refine isWritable_int_iff.2 ?_
      split <;> simpa using bound
  · obtain ⟨rfl, _⟩ := Prod.mk.inj (Except.ok.inj (Option.some.inj read))
    rfl

theorem isWritable_of_wordValue? {s : List Char} (read : wordValue? s = some (v, rest)) : v.isWritable = true := by
  have plain {word : String} {w : Json τ} (free : w.isWritable = true)
      (found : (word? word s).map (fun rest => (w, rest)) = some (v, rest)) : v.isWritable = true := by
    obtain ⟨_, _, same⟩ := Option.map_eq_some_iff.1 found
    exact (Prod.mk.inj same).1 ▸ free
  simp only [wordValue?, HOrElse.hOrElse, OrElse.orElse, ← Option.or_eq_orElse, Option.or_eq_some_iff] at read
  rcases read with found | ⟨_, found | ⟨_, found | ⟨_, found | ⟨_, found | ⟨_, found⟩⟩⟩⟩⟩
  all_goals exact plain rfl found

variable [OfPoints τ] [DecidableEq τ]

/-- What is read by one of the three readers can be written, if what has been read in front of it can be. -/
structure ReadsWritable (τ : Type) [OfPoints τ] [DecidableEq τ] (fuel : Nat) : Prop where
  ofValue {room : Nat} {s rest : List Char} {v : Json τ} (read : value fuel room s = .ok (v, rest)) :
    v.isWritable = true
  ofItems {room : Nat} {front : List (Json τ)} {s rest : List Char} {v : Json τ}
    (read : items fuel room front s = .ok (v, rest)) (before : ∀ item ∈ front, item.isWritable = true) :
    v.isWritable = true
  ofMembers {room : Nat} {front : List (τ × Json τ)} {s rest : List Char} {v : Json τ}
    (read : members fuel room front s = .ok (v, rest)) (before : ∀ field ∈ front, field.2.isWritable = true) :
    v.isWritable = true

omit [OfPoints τ] in
theorem isWritable_set {fields : List (τ × Json τ)} (before : ∀ field ∈ fields, field.2.isWritable = true) (name : τ)
    (writable : v.isWritable = true) : ∀ field ∈ Assoc.set name v fields, field.2.isWritable = true := by
  intro field member
  rcases Assoc.mem_values_set (List.mem_map_of_mem member) with same | old
  · exact same ▸ writable
  · obtain ⟨known, inside, same⟩ := List.mem_map.1 old
    exact same ▸ before known inside

section Step

variable {fuel room : Nat} {s : List Char} (ih : ReadsWritable τ fuel)
include ih

theorem ReadsWritable.value_succ (read : value (fuel + 1) room s = .ok (v, rest)) : v.isWritable = true := by
  unfold value Except.map at read
  split at read
  · split at read
    · exact nomatch read
    · obtain ⟨rfl, _⟩ := Prod.mk.inj (Except.ok.inj read)
      rfl
  · split at read
    · exact nomatch read
    · obtain ⟨rfl, _⟩ := Prod.mk.inj (Except.ok.inj read)
      exact isWritable_arr.2 nofun
    · exact ih.ofItems read nofun
  · split at read
    · exact nomatch read
    · obtain ⟨rfl, _⟩ := Prod.mk.inj (Except.ok.inj read)
      exact isWritable_obj.2 nofun
    · exact ih.ofMembers read nofun
  · split at read
    · next word =>
      obtain rfl := Except.ok.inj read
      exact isWritable_of_wordValue? word
    · cases number : (number? s : Option (Reading (Json τ))) with
      | none => exact nomatch (congrArg (Option.getD · _) number).symm.trans read
      | some found =>
        have same : found = .ok (v, rest) := (congrArg (Option.getD · _) number).symm.trans read
        exact isWritable_of_number? (same ▸ number)

theorem ReadsWritable.items_succ {front : List (Json τ)} (read : items (fuel + 1) room front s = .ok (v, rest))
    (before : ∀ item ∈ front, item.isWritable = true) : v.isWritable = true := by
  unfold items at read
  split at read
  · exact nomatch read
  · next item after found =>
    have all : ∀ other ∈ item :: front, other.isWritable = true := List.forall_mem_cons.2 ⟨ih.ofValue found, before⟩
    split at read
    · obtain ⟨rfl, _⟩ := Prod.mk.inj (Except.ok.inj read)
      exact isWritable_arr.2 fun other member => all other (List.mem_reverse.1 member)
    · exact ih.ofItems read all
    · exact nomatch read

theorem ReadsWritable.members_succ {front : List (τ × Json τ)}
    (read : members (fuel + 1) room front s = .ok (v, rest))
    (before : ∀ field ∈ front, field.2.isWritable = true) : v.isWritable = true := by
  unfold members at read
  split at read
  · split at read
    · exact nomatch read
    · split at read
      · split at read
        · exact nomatch read
        · next item after found =>
          have all (name : τ) := isWritable_set before name (ih.ofValue found)
          simp only at read
          split at read
          · obtain ⟨rfl, _⟩ := Prod.mk.inj (Except.ok.inj read)
            exact isWritable_obj.2 (all _)
          · exact ih.ofMembers read (all _)
          · exact nomatch read
      · exact nomatch read
  · exact nomatch read

end Step

theorem readsWritable (fuel : Nat) : ReadsWritable τ fuel := by
  induction fuel with
  | zero => exact ⟨nofun, nofun, nofun⟩
  | succ fuel ih => exact ⟨ih.value_succ, ih.items_succ, ih.members_succ⟩

theorem isWritable_of_parseAs {s : List Char} (read : parseAs τ s = .ok v) : v.isWritable = true := by
  unfold parseAs at read
  split at read
  · exact nomatch read
  · next found =>
    split at read
    · obtain rfl := Except.ok.inj read
      exact (readsWritable _).ofValue found
    · exact nomatch read

end Reading

section Bounds

theorem isWritable_int_of_lt_ten {n : Int} (small : n.natAbs < 10) : (int n : Json).isWritable = true :=
  isWritable_int_iff.2 (Nat.lt_of_lt_of_le small (Nat.le_self_pow (by decide) 10))

theorem natAbs_ten_pow (count : Nat) :
    ((10 : Int) ^ count - 1).natAbs < 10 ^ count ∧ ((10 : Int) ^ count - 1 + 1).natAbs = 10 ^ count := by
  have ten : Int.natAbs 10 = 10 := rfl
  have amount : ((10 : Int) ^ count).natAbs = 10 ^ count := by rw [Int.natAbs_pow, ten]
  have positive : (0 : Int) < 10 ^ count := Int.pow_pos (by decide)
  omega

theorem isWritable_greatest : (int (10 ^ maxDigits - 1) : Json).isWritable = true :=
  isWritable_int_iff.2 (natAbs_ten_pow maxDigits).1

theorem isWritable_beyond : (int (10 ^ maxDigits - 1 + 1) : Json).isWritable = false := by
  rw [Bool.eq_false_iff, Ne, isWritable_int_iff, (natAbs_ten_pow maxDigits).2]
  exact Nat.lt_irrefl _

end Bounds

section Parts

variable {v : Json}

theorem isWritable_field (writable : v.isWritable = true) (name : String) {default : Json}
    (own : default.isWritable = true) : ((v.field? name).getD default).isWritable = true := by
  cases found : v.field? name with
  | none => exact own
  | some held =>
    cases v with
    | obj fields => exact isWritable_obj.1 writable _ (Assoc.mem_of_get? found)
    | _ => exact nomatch found

theorem isWritable_of_askOr {name : String} {default held : Json} (asked : v.askOr name default = .ok held)
    (writable : v.isWritable = true) (own : default.isWritable = true) : held.isWritable = true := by
  rw [askOr_of_isObject (isObject_of_askOr asked)] at asked
  exact Except.ok.inj asked ▸ isWritable_field writable name own

theorem isWritable_of_whole? {n : Int} (writable : v.isWritable = true) (whole : v.whole? = some n) :
    (int n : Json).isWritable = true := by
  cases v with
  | int m =>
    obtain rfl := Option.some.inj whole
    exact writable
  | bool b =>
    obtain rfl := Option.some.inj whole
    cases b with
    | false => exact isWritable_int_of_lt_ten (by decide)
    | true => exact isWritable_int_of_lt_ten (by decide)
  | _ => exact nomatch whole

end Parts

end Json

end CodeDeck
