import CodeDeck.Text.Utf8
import Mathlib.Data.List.Basic

/-! UTF-8 read back. The bytes of a character are the ones that every text of Lean holds, and reading them, byte by
byte, gives the character again, whatever stands in front of it and behind it. -/

namespace CodeDeck.Text.Utf8

def bytesOf (s : String) : List Nat := s.toUTF8.data.toList.map UInt8.toNat

theorem lt_of_mem_bytesOf {s : String} {b : Nat} (member : b ∈ bytesOf s) : b < 256 := by
  obtain ⟨byte, -, rfl⟩ := List.mem_map.1 member
  exact byte.toNat_lt

theorem code_cases (c : Char) : c.toNat < 0xD800 ∨ 0xDFFF < c.toNat ∧ c.toNat < 0x110000 := c.valid

section Lengths

variable {c : Char}

theorem encodeChar_one (one : c.toNat < 0x80) : encodeChar c = [c.toNat] := if_pos one

theorem encodeChar_two (low : 0x80 ≤ c.toNat) (high : c.toNat < 0x800) :
    encodeChar c = [0xC0 + c.toNat / 0x40, 0x80 + c.toNat % 0x40] :=
  (if_neg (Nat.not_lt.2 low)).trans (if_pos high)

theorem encodeChar_three (low : 0x800 ≤ c.toNat) (high : c.toNat < 0x10000) :
    encodeChar c = [0xE0 + c.toNat / 0x1000, 0x80 + c.toNat / 0x40 % 0x40, 0x80 + c.toNat % 0x40] :=
  ((if_neg (by omega)).trans (if_neg (Nat.not_lt.2 low))).trans (if_pos high)

theorem encodeChar_four (low : 0x10000 ≤ c.toNat) :
    encodeChar c = [0xF0 + c.toNat / 0x40000, 0x80 + c.toNat / 0x1000 % 0x40, 0x80 + c.toNat / 0x40 % 0x40,
      0x80 + c.toNat % 0x40] :=
  ((if_neg (by omega)).trans (if_neg (by omega))).trans (if_neg (Nat.not_lt.2 low))

theorem length_cases (c : Char) :
    c.toNat < 0x80 ∨ 0x80 ≤ c.toNat ∧ c.toNat < 0x800 ∨ 0x800 ≤ c.toNat ∧ c.toNat < 0x10000 ∨ 0x10000 ≤ c.toNat := by
  omega

theorem lt_of_mem_encodeChar {b : Nat} (member : b ∈ encodeChar c) : b < 256 := by
  have valid := code_cases c
  rcases length_cases c with one | ⟨low, high⟩ | ⟨low, high⟩ | low
  · rw [encodeChar_one one, List.mem_singleton] at member
    omega
  · simp only [encodeChar_two low high, List.mem_cons, List.not_mem_nil, or_false] at member
    omega
  · simp only [encodeChar_three low high, List.mem_cons, List.not_mem_nil, or_false] at member
    omega
  · simp only [encodeChar_four low, List.mem_cons, List.not_mem_nil, or_false] at member
    omega

end Lengths

theorem encodeChar_eq (c : Char) : encodeChar c = (String.utf8EncodeChar c).map UInt8.toNat := by
  have valid := code_cases c
  have code : c.val.toNat = c.toNat := rfl
  simp only [String.utf8EncodeChar, code]
  rcases length_cases c with one | ⟨low, high⟩ | ⟨low, high⟩ | low
  · rw [encodeChar_one one, if_pos (by omega)]
    simp
    omega
  · rw [encodeChar_two low high, if_neg (by omega), if_pos (by omega)]
    simp
    omega
  · rw [encodeChar_three low high, if_neg (by omega), if_neg (by omega), if_pos (by omega)]
    simp
    omega
  · rw [encodeChar_four low, if_neg (by omega), if_neg (by omega), if_neg (by omega)]
    simp
    omega

theorem encode_toList (s : String) : encode s.toList = bytesOf s := by
  have whole : s.toUTF8 = s.toList.utf8Encode := String.utf8Encode_toList.symm
  rw [bytesOf, whole, List.utf8Encode, List.toList_data_toByteArray, List.map_flatMap, encode]
  exact congrArg (List.flatMap · s.toList) (funext encodeChar_eq)

section Reading

variable {read : List Char} {p : Partial} {b : Nat} {rest : List Nat}

theorem decodeFrom_start {p : Partial} (starts : startByte b = ([], some p)) :
    decodeFrom read none (b :: rest) = decodeFrom read (some p) rest := by
  simp only [decodeFrom, nextByte, starts]
  rfl

theorem decodeFrom_next (low : p.low ≤ b) (high : b ≤ p.high) (lacks : p.lacks ≠ 1) :
    decodeFrom read (some p) (b :: rest) =
      decodeFrom read (some ⟨p.value * 0x40 + (b - 0x80), p.lacks - 1, 0x80, 0xBF⟩) rest := by
  simp only [decodeFrom, nextByte, if_pos (And.intro low high), if_neg lacks]
  rfl

theorem decodeFrom_last (low : p.low ≤ b) (high : b ≤ p.high) (lacks : p.lacks = 1) :
    decodeFrom read (some p) (b :: rest) =
      decodeFrom (Char.ofNat (p.value * 0x40 + (b - 0x80)) :: read) none rest := by
  simp only [decodeFrom, nextByte, if_pos (And.intro low high), if_pos lacks]
  rfl

theorem startByte_two (low : 0xC2 ≤ b) (high : b < 0xE0) :
    startByte b = ([], some ⟨b - 0xC0, 1, 0x80, 0xBF⟩) := by
  rw [startByte, if_neg (by omega), if_neg (by omega), if_pos high]

theorem startByte_three (low : 0xE0 ≤ b) (high : b < 0xF0) :
    startByte b =
      ([], some ⟨b - 0xE0, 2, if b = 0xE0 then 0xA0 else 0x80, if b = 0xED then 0x9F else 0xBF⟩) := by
  rw [startByte, if_neg (by omega), if_neg (by omega), if_neg (by omega), if_pos high]

theorem startByte_four (low : 0xF0 ≤ b) (high : b < 0xF5) :
    startByte b =
      ([], some ⟨b - 0xF0, 3, if b = 0xF0 then 0x90 else 0x80, if b = 0xF4 then 0x8F else 0xBF⟩) := by
  rw [startByte, if_neg (by omega), if_neg (by omega), if_neg (by omega), if_neg (by omega), if_pos high]

end Reading

theorem ofNat_eq {c : Char} {n : Nat} (same : n = c.toNat) : Char.ofNat n = c := by
  rw [same, Char.ofNat_toNat]

theorem decodeFrom_encodeChar (read : List Char) (c : Char) (rest : List Nat) :
    decodeFrom read none (encodeChar c ++ rest) = decodeFrom (c :: read) none rest := by
  have valid := code_cases c
  rcases length_cases c with one | ⟨low, high⟩ | ⟨low, high⟩ | low
  · have starts : startByte c.toNat = ([c], none) := by rw [startByte, if_pos one, Char.ofNat_toNat]
    rw [encodeChar_one one]
    simp only [List.singleton_append, decodeFrom, nextByte, starts]
    rfl
  · rw [encodeChar_two low high, List.cons_append, decodeFrom_start (startByte_two (by omega) (by omega)),
      List.singleton_append, decodeFrom_last (by simp only; omega) (by simp only; omega) rfl,
      ofNat_eq (c := c) (by simp only; omega)]
  · -- A first byte of 0xE0 is followed by a great one, one of 0xED by a small one that makes it no surrogate.
    rw [encodeChar_three low high, List.cons_append, decodeFrom_start (startByte_three (by omega) (by omega)),
      List.cons_append,
      decodeFrom_next (by simp only; split <;> omega) (by simp only; split <;> omega) (by simp only; omega),
      List.singleton_append, decodeFrom_last (by simp only; omega) (by simp only; omega) rfl,
      ofNat_eq (c := c) (by simp only; omega)]
  · rw [encodeChar_four low, List.cons_append, decodeFrom_start (startByte_four (by omega) (by omega)),
      List.cons_append,
      decodeFrom_next (by simp only; split <;> omega) (by simp only; split <;> omega) (by simp only; omega),
      List.cons_append, decodeFrom_next (by simp only; omega) (by simp only; omega) (by simp only; omega),
      List.singleton_append, decodeFrom_last (by simp only; omega) (by simp only; omega) rfl,
      ofNat_eq (c := c) (by simp only; omega)]

theorem decodeFrom_encode (read s : List Char) : decodeFrom read none (encode s) = read.reverse ++ s := by
  induction s generalizing read with
  | nil => exact (List.append_nil _).symm
  | cons c rest ih =>
    rw [encode, List.flatMap_cons, decodeFrom_encodeChar]
    exact (ih (c :: read)).trans (by simp)

theorem decode_encode (s : List Char) : decode (encode s) = s := decodeFrom_encode [] s

theorem decode_bytesOf (s : String) : String.ofList (decode (bytesOf s)) = s := by
  rw [← encode_toList, decode_encode, String.ofList_toList]

theorem encode_inj {s t : List Char} (same : encode s = encode t) : s = t := by
  rw [← decode_encode s, same, decode_encode]

end CodeDeck.Text.Utf8
