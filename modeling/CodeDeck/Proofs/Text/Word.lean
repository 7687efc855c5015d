import CodeDeck.Proofs.Text.Lines
import CodeDeck.Text.Word

/-! Word characters are not blank: the two classes have no code point in common. Trimming takes blanks away
and nothing else. -/

namespace CodeDeck.Text

def CharTable.Apart (t u : CharTable) : Prop :=
  ∀ run ∈ t, ∀ other ∈ u, run.2 < other.1 ∨ other.2 < run.1

instance (t u : CharTable) : Decidable (t.Apart u) :=
  inferInstanceAs (Decidable (∀ run ∈ t, ∀ other ∈ u, run.2 < other.1 ∨ other.2 < run.1))

theorem CharTable.not_has_of_apart {t u : CharTable} (apart : t.Apart u) {c : Char} (inside : t.has c = true) :
    u.has c = false := by
  cases both : u.has c with
  | false => rfl
  | true =>
    obtain ⟨run, member, least, greatest⟩ := (t.has_iff c).1 inside
    obtain ⟨other, member', least', greatest'⟩ := (u.has_iff c).1 both
    have order := apart run member other member'
    omega

theorem blank_apart_word : blankTable.Apart wordTable := by decide +kernel

theorem blank_apart_ascii : blankTable.Apart [(48, 127)] := by decide

theorem le_toNat_of_isWord {c : Char} (word : (c.isAlphanum || c == '_') = true) : 48 ≤ c.toNat := by
  have within (first : Char) (behind : 48 ≤ first.toNat) (bound : first.val ≤ c.val) : 48 ≤ c.toNat :=
    Nat.le_trans behind (UInt32.le_iff_toNat_le.1 bound)
  rcases Bool.or_eq_true_iff.1 word with letter | underscore
  · rcases Bool.or_eq_true_iff.1 letter with alpha | digit
    · rcases Bool.or_eq_true_iff.1 alpha with upper | lower
      · exact within 'A' (by decide) (of_decide_eq_true upper).1
      · exact within 'a' (by decide) (of_decide_eq_true (Bool.and_eq_true_iff.1 lower).1)
    · exact within '0' (by decide) (of_decide_eq_true (Bool.and_eq_true_iff.1 digit).1)
  · rw [beq_iff_eq.1 underscore]
    decide

theorem isBlank_of_isWord {c : Char} (word : isWord c = true) : isBlank c = false := by
  cases blank : isBlank c with
  | false => rfl
  | true =>
    by_cases ascii : c.toNat < 128
    · rw [isWord, if_pos ascii] at word
      have inside : CharTable.has [(48, 127)] c = true :=
        (CharTable.has_iff ..).2 ⟨_, List.mem_singleton_self _, le_toNat_of_isWord word, by omega⟩
      rw [CharTable.not_has_of_apart blank_apart_ascii blank] at inside
      contradiction
    · rw [isWord, if_neg ascii, CharTable.not_has_of_apart blank_apart_word blank] at word
      contradiction

theorem trimStart_gap {gap w : List Char} (blank : ∀ c ∈ gap, isBlank c = true)
    (inked : w.head?.any (fun c => !isBlank c) = true) (rest : List Char) :
    trimStart (gap ++ (w ++ rest)) = w ++ rest := by
  rw [trimStart, List.dropWhile_append_of_pos blank]
  cases w with
  | nil => contradiction
  | cons c letters =>
    have plain : isBlank c = false := by simpa using inked
    exact List.dropWhile_cons_of_neg (by simp [plain])

theorem Trimmed.trim_eq {s : List Char} (trimmed : Trimmed s) : trim s = s := by
  have start : trimStart s = s := trimStart_of_inked trimmed.first
  have stop : trimEnd s = s := by
    have last := trimmed.last
    rw [← List.head?_reverse] at last
    rw [trimEnd]
    cases back : s.reverse with
    | nil => simpa using back.symm
    | cons c rest =>
      have kept : isBlank c = false := last c (by rw [back]; rfl)
      rw [List.dropWhile_cons_of_neg (by rw [kept]; exact Bool.false_ne_true), ← back, List.reverse_reverse]
  rw [trim, start, stop]

end CodeDeck.Text
