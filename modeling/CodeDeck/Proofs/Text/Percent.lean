import CodeDeck.Proofs.Text.Lines
import CodeDeck.Proofs.Text.Utf8
import CodeDeck.Text.Percent

/-! Percent encoding read back. Each percent sign in what has been encoded starts the two digits of a byte, as long
as no percent sign stands for itself, so that the bytes are those of the text. The encoding of a text without a
separator has none either, so that parts are encoded one by one. -/

namespace CodeDeck.Text.Percent

theorem hexValue?_hexDigit {n : Nat} (bound : n < 16) : hexValue? (hexDigit n) = some n := by
  have each : ∀ n < 16, hexValue? (hexDigit n) = some n := by decide
  exact each n bound

theorem bytes_encodeByte {b : Nat} (bound : b < 256) (rest : List Char) :
    bytes 0 (encodeByte b ++ rest) = b :: bytes 0 rest := by
  have first := hexValue?_hexDigit (n := b / 16) (by omega)
  have second := hexValue?_hexDigit (n := b % 16) (by omega)
  have whole : 16 * (b / 16) + b % 16 = b := Nat.div_add_mod b 16
  have read : byte? ('%' :: hexDigit (b / 16) :: hexDigit (b % 16) :: rest) = some b := by
    simp only [byte?, first, second, whole, bind, Option.bind, pure]
  change bytes 0 ('%' :: hexDigit (b / 16) :: hexDigit (b % 16) :: rest) = _
  rw [bytes, read]
  rfl

theorem bytes_encodeBytes {bs : List Nat} (bounded : ∀ b ∈ bs, b < 256) (rest : List Char) :
    bytes 0 (bs.flatMap encodeByte ++ rest) = bs ++ bytes 0 rest := by
  induction bs with
  | nil => rfl
  | cons b others ih =>
    obtain ⟨first, behind⟩ := List.forall_mem_cons.1 bounded
    rw [List.flatMap_cons, List.append_assoc, bytes_encodeByte first, ih behind, List.cons_append]

theorem bytes_cons_of_ne {c : Char} (other : c ≠ '%') (rest : List Char) :
    bytes 0 (c :: rest) = Utf8.encodeChar c ++ bytes 0 rest := by
  have none : byte? (c :: rest) = none := by
    unfold byte?
    split
    · next same => exact absurd (List.cons.inj same).1 other
    · rfl
  rw [bytes, none]

section Encoding

variable {safe : Char → Bool}

theorem bytes_encode (escapes : safe '%' = false) (s : List Char) : bytes 0 (encode safe s) = Utf8.encode s := by
  induction s with
  | nil => rfl
  | cons c rest ih =>
    have step : bytes 0 (encode safe (c :: rest)) = Utf8.encodeChar c ++ bytes 0 (encode safe rest) := by
      rw [encode, List.flatMap_cons]
      split
      · next kept =>
        have other : c ≠ '%' := fun same => absurd (same ▸ kept) (by simp [escapes])
        exact bytes_cons_of_ne other _
      · exact bytes_encodeBytes (fun _ member => Utf8.lt_of_mem_encodeChar member) _
    rw [step, ih]
    exact List.flatMap_cons.symm

theorem encode_inj (escapes : safe '%' = false) {s t : List Char} (same : encode safe s = encode safe t) : s = t :=
  Utf8.encode_inj (by rw [← bytes_encode escapes, same, bytes_encode escapes])

theorem mem_encode {s : List Char} {c : Char} (member : c ∈ encode safe s) :
    c ∈ s ∧ safe c = true ∨ c = '%' ∨ ∃ n < 16, c = hexDigit n := by
  obtain ⟨d, old, member⟩ := List.mem_flatMap.1 member
  split at member
  · next kept =>
    obtain rfl := List.mem_singleton.1 member
    exact .inl ⟨old, kept⟩
  · obtain ⟨b, byte, member⟩ := List.mem_flatMap.1 member
    have bound := Utf8.lt_of_mem_encodeChar byte
    simp only [encodeByte, List.mem_cons, List.not_mem_nil, or_false] at member
    rcases member with sign | first | second
    · exact .inr (.inl sign)
    · exact .inr (.inr ⟨b / 16, by omega, first⟩)
    · exact .inr (.inr ⟨b % 16, by omega, second⟩)

theorem encode_append (s t : List Char) : encode safe (s ++ t) = encode safe s ++ encode safe t :=
  List.flatMap_append

theorem encode_intercalate {separator : Char} (kept : safe separator = true) (parts : List (List Char)) :
    encode safe (List.intercalate [separator] parts) = List.intercalate [separator] (parts.map (encode safe)) := by
  have alone : encode safe [separator] = [separator] := by simp [encode, kept]
  induction parts with
  | nil => rfl
  | cons part rest ih =>
    cases rest with
    | nil => rw [List.intercalate_singleton, List.map_singleton, List.intercalate_singleton]
    | cons second others =>
      rw [List.intercalate_cons_cons, encode_append, encode_append, alone, ih]
      exact List.intercalate_cons_cons.symm

end Encoding

section Paths

theorem hexDigit_plain {n : Nat} (bound : n < 16) : hexDigit n ≠ '/' ∧ isUnreserved (hexDigit n) = true := by
  have each : ∀ n < 16, hexDigit n ≠ '/' ∧ isUnreserved (hexDigit n) = true := by decide
  exact each n bound

theorem encodePath_inj {s t : List Char} (same : encodePath s = encodePath t) : s = t :=
  encode_inj (by decide) same

theorem bytes_encodePath (path : String) : bytes 0 (encodePath path.toList) = Utf8.bytesOf path :=
  (bytes_encode (by decide) _).trans (Utf8.encode_toList path)

theorem mem_encodePath {path : List Char} {c : Char} (member : c ∈ encodePath path) :
    isUnreserved c = true ∨ c = '%' := by
  rcases mem_encode member with ⟨-, kept⟩ | sign | ⟨n, bound, rfl⟩
  · exact .inl kept
  · exact .inr sign
  · exact .inl (hexDigit_plain bound).2

theorem slash_notMem_encodePath {part : List Char} (free : '/' ∉ part) : '/' ∉ encodePath part := by
  intro member
  rcases mem_encode member with ⟨inside, -⟩ | sign | ⟨n, bound, same⟩
  · exact free inside
  · exact absurd sign (by decide)
  · exact (hexDigit_plain bound).1 same.symm

theorem splitOn_encodePath (path : List Char) :
    splitOn '/' (encodePath path) = (splitOn '/' path).map encodePath := by
  have free : ∀ part ∈ (splitOn '/' path).map encodePath, '/' ∉ part := by
    intro part member
    obtain ⟨piece, kept, rfl⟩ := List.mem_map.1 member
    exact slash_notMem_encodePath (notMem_of_mem_splitOn kept)
  have some : (splitOn '/' path).map encodePath ≠ [] := by simpa using splitOn_ne_nil '/' path
  have encoded : encodePath path = List.intercalate ['/'] ((splitOn '/' path).map encodePath) := by
    conv_lhs => rw [← intercalate_splitOn '/' path]
    exact encode_intercalate (by decide) _
  rw [encoded, splitOn_intercalate some free]

end Paths

end CodeDeck.Text.Percent
