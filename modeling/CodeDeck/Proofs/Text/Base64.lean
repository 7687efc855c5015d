import CodeDeck.Text.Base64
import Mathlib.Data.List.Basic

/-! Base 64 read back. The padded text of bytes is read as these bytes, whatever the number of them leaves for the
last group. Line ends that are put into the text are told apart from it, as it has none. -/

namespace CodeDeck.Text.Base64

section Digits

variable {v : Nat}

theorem value?_digit (bound : v < 64) : value? (digit v) = some v := by
  have each : ∀ v < 64, value? (digit v) = some v := by decide
  exact each v bound

theorem digit_plain (bound : v < 64) : digit v ≠ '=' ∧ digit v ≠ '\n' ∧ (digit v).toNat < 128 := by
  have each : ∀ v < 64, digit v ≠ '=' ∧ digit v ≠ '\n' ∧ (digit v).toNat < 128 := by decide
  exact each v bound

theorem decodeFrom_digit (read : List Nat) (g : Group) (bound : v < 64) (rest : List Char) :
    decodeFrom read g (digit v :: rest) = decodeFrom ((g.take v).2 ++ read) (g.take v).1 rest := by
  rw [decodeFrom, if_neg (digit_plain bound).1, value?_digit bound]

end Digits

/-! Behind a full group the next one starts afresh, and padding ends the text behind one byte or two. -/

section Groups

variable {a b c : Nat} (read : List Nat)

theorem decodeFrom_one (first : a < 256) :
    decodeFrom read ⟨0, 0, 0⟩ (encode [a]) = .ok (read.reverse ++ [a]) := by
  have byte : a / 4 * 4 + a % 4 * 16 / 16 = a := by omega
  rw [encode, decodeFrom_digit _ _ (by omega), decodeFrom_digit _ _ (by omega)]
  simp only [Group.take, byte]
  exact congrArg Except.ok List.reverse_cons

theorem decodeFrom_two (first : a < 256) (second : b < 256) :
    decodeFrom read ⟨0, 0, 0⟩ (encode [a, b]) = .ok (read.reverse ++ [a, b]) := by
  have byte : a / 4 * 4 + (a % 4 * 16 + b / 16) / 16 = a := by omega
  have next : (a % 4 * 16 + b / 16) % 16 * 16 + b % 16 * 4 / 4 = b := by omega
  rw [encode, decodeFrom_digit _ _ (by omega), decodeFrom_digit _ _ (by omega), decodeFrom_digit _ _ (by omega)]
  simp only [Group.take, byte, next]
  exact congrArg Except.ok (by simp)

theorem decodeFrom_three (first : a < 256) (second : b < 256) (third : c < 256) (rest : List Nat) :
    decodeFrom read ⟨0, 0, 0⟩ (encode (a :: b :: c :: rest)) =
      decodeFrom (c :: b :: a :: read) ⟨0, 0, 0⟩ (encode rest) := by
  have byte : a / 4 * 4 + (a % 4 * 16 + b / 16) / 16 = a := by omega
  have next : (a % 4 * 16 + b / 16) % 16 * 16 + (b % 16 * 4 + c / 64) / 4 = b := by omega
  have last : (b % 16 * 4 + c / 64) % 4 * 64 + c % 64 = c := by omega
  rw [encode, decodeFrom_digit _ _ (by omega), decodeFrom_digit _ _ (by omega), decodeFrom_digit _ _ (by omega),
    decodeFrom_digit _ _ (by omega)]
  simp only [Group.take, byte, next, last]
  rfl

end Groups

theorem decodeFrom_encode (read : List Nat) {bytes : List Nat} (bounded : ∀ b ∈ bytes, b < 256) :
    decodeFrom read ⟨0, 0, 0⟩ (encode bytes) = .ok (read.reverse ++ bytes) := by
  induction bytes using encode.induct generalizing read with
  | case1 => exact congrArg Except.ok (List.append_nil _).symm
  | case2 a => exact decodeFrom_one read (bounded a List.mem_cons_self)
  | case3 a b =>
    simp only [List.forall_mem_cons] at bounded
    exact decodeFrom_two read bounded.1 bounded.2.1
  | case4 a b c rest ih =>
    simp only [List.forall_mem_cons] at bounded
    obtain ⟨first, second, third, others⟩ := bounded
    rw [decodeFrom_three read first second third, ih _ others]
    simp

theorem plain_of_mem_encode {bytes : List Nat} (bounded : ∀ b ∈ bytes, b < 256) :
    ∀ c ∈ encode bytes, c ≠ '\n' ∧ c.toNat < 128 := by
  have pad : '=' ≠ '\n' ∧ '='.toNat < 128 := by decide
  have plain {v : Nat} (bound : v < 64) : digit v ≠ '\n' ∧ (digit v).toNat < 128 := (digit_plain bound).2
  induction bytes using encode.induct with
  | case1 => exact List.forall_mem_nil _
  | case2 a =>
    simp only [List.forall_mem_cons] at bounded
    simp only [encode, List.forall_mem_cons]
    exact ⟨plain (by omega), plain (by omega), pad, pad, List.forall_mem_nil _⟩
  | case3 a b =>
    simp only [List.forall_mem_cons] at bounded
    simp only [encode, List.forall_mem_cons]
    exact ⟨plain (by omega), plain (by omega), plain (by omega), pad, List.forall_mem_nil _⟩
  | case4 a b c rest ih =>
    simp only [List.forall_mem_cons] at bounded
    simp only [encode, List.forall_mem_cons]
    exact ⟨plain (by omega), plain (by omega), plain (by omega), plain (by omega), ih bounded.2.2.2⟩

theorem decode_encode {bytes : List Nat} (bounded : ∀ b ∈ bytes, b < 256) : decode (encode bytes) = .ok bytes := by
  have ascii : ((encode bytes).all fun c => c.toNat < 128) = true := by
    rw [List.all_eq_true]
    exact fun c member => decide_eq_true (plain_of_mem_encode bounded c member).2
  rw [decode, if_pos ascii]
  exact decodeFrom_encode [] bounded

/-- The second text is the first one with line ends put in at any places. -/
inductive Wrapped : List Char → List Char → Prop
  | nil : Wrapped [] []
  | char (c : Char) {s t : List Char} (rest : Wrapped s t) : Wrapped (c :: s) (c :: t)
  | newline {s t : List Char} (rest : Wrapped s t) : Wrapped s ('\n' :: t)

theorem Wrapped.filter {s t : List Char} (wrapped : Wrapped s t) (whole : '\n' ∉ s) : t.filter (· != '\n') = s := by
  induction wrapped with
  | nil => rfl
  | char c rest ih =>
    rw [List.mem_cons, not_or] at whole
    rw [List.filter_cons_of_pos (by simpa using Ne.symm whole.1), ih whole.2]
  | newline rest ih =>
    rw [List.filter_cons_of_neg (by decide)]
    exact ih whole

theorem wrapped_filter (t : List Char) : Wrapped (t.filter (· != '\n')) t := by
  induction t with
  | nil => exact .nil
  | cons c rest ih =>
    by_cases ends : c = '\n'
    · subst ends
      rw [List.filter_cons_of_neg (by decide)]
      exact .newline ih
    · rw [List.filter_cons_of_pos (by simpa using ends)]
      exact .char c ih

theorem decode_of_wrapped {bytes : List Nat} (bounded : ∀ b ∈ bytes, b < 256) {lines : List Char}
    (wrapped : Wrapped (encode bytes) lines) : decode (lines.filter (· != '\n')) = .ok bytes := by
  have whole : '\n' ∉ encode bytes := fun member => (plain_of_mem_encode bounded _ member).1 rfl
  rw [wrapped.filter whole]
  exact decode_encode bounded

end CodeDeck.Text.Base64
