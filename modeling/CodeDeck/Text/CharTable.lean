/-!
Tables of characters. A table is a list of runs of code points, and a character belongs to it when
its code point lies in one of the runs.
-/

namespace CodeDeck.Text

/-- Both ends belong to the run. -/
abbrev CharTable := List (Nat × Nat)

def CharTable.has (table : CharTable) (c : Char) : Bool :=
  table.any fun run => run.1 ≤ c.toNat && c.toNat ≤ run.2

theorem CharTable.has_iff (table : CharTable) (c : Char) :
    table.has c = true ↔ ∃ run ∈ table, run.1 ≤ c.toNat ∧ c.toNat ≤ run.2 := by
  simp [CharTable.has]

end CodeDeck.Text
