import CodeDeck.Extract.Curly
import CodeDeck.Proofs.Pattern.Found
import CodeDeck.Proofs.Scan.Balanced
import CodeDeck.Proofs.Scan.Body
import CodeDeck.Proofs.Text.Word

/-! The text of an arrow binding: from its head through a body in braces, or up to the place where a binding without
braces ends. That place is looked for from the start of the head on, so that the head is cut where such a place stands
in it. -/

namespace CodeDeck.Extract.Curly

open CodeDeck.Text CodeDeck.Pattern CodeDeck.Scan

/-! Where a binding without braces ends. -/

def breakLeads : List String := ["\n\nexport", "\nconst", "\nfunction", "\nclass"]

/-- A text that starts with the end of a binding, of which as many characters belong to the binding. -/
inductive Break : List Char → Nat → Prop
  | statement (rest : List Char) : Break (';' :: '\n' :: '\n' :: rest) 1
  | declaration {lead : String} (listed : lead ∈ breakLeads) {c : Char} (blank : isBlank c = true)
      (rest : List Char) : Break (lead.toList ++ c :: rest) 0

theorem Break.head {s : List Char} {kept : Nat} (breaks : Break s kept) :
    s.head? = some (if kept = 0 then '\n' else ';') ∧ kept ≤ 1 := by
  cases breaks with
  | statement rest => exact ⟨rfl, Nat.le_refl 1⟩
  | @declaration lead listed c _ rest =>
    have newline : ∀ lead ∈ breakLeads, lead.toList.head? = some '\n' := by decide
    rw [List.head?_append, newline lead listed]
    exact ⟨rfl, Nat.zero_le 1⟩

theorem followed_iff {lead : String} {s : List Char} :
    (lead.toList.isPrefixOf s && (s.drop lead.length).head?.any isBlank) = true ↔
      ∃ c rest, s = lead.toList ++ c :: rest ∧ isBlank c = true := by
  rw [Bool.and_eq_true, List.isPrefixOf_iff_prefix, ← String.length_toList]
  constructor
  · rintro ⟨⟨behind, rfl⟩, blank⟩
    rw [List.drop_left] at blank
    cases behind with
    | nil => contradiction
    | cons c rest => exact ⟨c, rest, rfl, blank⟩
  · rintro ⟨c, rest, rfl, blank⟩
    refine ⟨List.prefix_append .., ?_⟩
    rw [List.drop_left]
    exact blank

theorem arrowBreak?_eq (s : List Char) :
    arrowBreak? s =
      if breakLeads.any (fun lead => lead.toList.isPrefixOf s && (s.drop lead.length).head?.any isBlank) then some 0
      else if ";\n\n".toList.isPrefixOf s then some 1 else none := by
  simp only [arrowBreak?, breakLeads, List.any_cons, List.any_nil, Bool.or_false, Bool.or_assoc]

theorem break_zero_iff {s : List Char} :
    breakLeads.any (fun lead => lead.toList.isPrefixOf s && (s.drop lead.length).head?.any isBlank) = true ↔
      Break s 0 := by
  rw [List.any_eq_true]
  constructor
  · rintro ⟨lead, listed, followed⟩
    obtain ⟨c, rest, rfl, blank⟩ := followed_iff.1 followed
    exact .declaration listed blank rest
  · intro breaks
    cases breaks with
    | @declaration lead listed c blank rest => exact ⟨lead, listed, followed_iff.2 ⟨c, rest, rfl, blank⟩⟩

theorem break_one_iff {s : List Char} : ";\n\n".toList.isPrefixOf s = true ↔ Break s 1 := by
  rw [List.isPrefixOf_iff_prefix]
  constructor
  · rintro ⟨rest, rfl⟩
    exact .statement rest
  · intro breaks
    cases breaks with
    | statement rest => exact ⟨rest, rfl⟩

theorem arrowBreak?_eq_some_iff {s : List Char} {kept : Nat} : arrowBreak? s = some kept ↔ Break s kept := by
  rw [arrowBreak?_eq]
  constructor
  · intro found
    split at found
    · next lead =>
      obtain rfl := Option.some.inj found
      exact break_zero_iff.1 lead
    · split at found
      · next semicolon =>
        obtain rfl := Option.some.inj found
        exact break_one_iff.1 semicolon
      · contradiction
  · intro breaks
    obtain ⟨first, bound⟩ := breaks.head
    match kept, bound with
    | 0, _ => rw [if_pos (break_zero_iff.2 breaks)]
    | 1, _ =>
      have other : ¬ Break s 0 := by
        intro lead
        have same := first.symm.trans lead.head.1
        exact absurd (Option.some.inj same) (by decide)
      rw [if_neg (mt break_zero_iff.1 other), if_pos (break_one_iff.2 breaks)]

def Unbroken (source : List Char) (start stop : Nat) : Prop :=
  ∀ i, start ≤ i → i < stop → ∀ kept, ¬ Break (source.drop i) kept

/-- From offset `start` on, the first end of a binding is that at `stop`. -/
def BreaksFirst (source : List Char) (start stop : Nat) : Prop :=
  ∃ i kept, start ≤ i ∧ Unbroken source start i ∧ Break (source.drop i) kept ∧ stop = i + kept

theorem arrowBreakFrom?_eq_some_iff {s : List Char} {i stop : Nat} :
    arrowBreakFrom? i s = some stop ↔
      ∃ n kept, Break (s.drop n) kept ∧ stop = i + n + kept ∧ ∀ m, m < n → ∀ kept, ¬ Break (s.drop m) kept := by
  induction s generalizing i with
  | nil =>
    constructor
    · intro found
      contradiction
    · rintro ⟨n, kept, breaks, _⟩
      rw [List.drop_nil] at breaks
      exact nomatch breaks.head.1
  | cons c rest ih =>
    rw [arrowBreakFrom?]
    cases here : arrowBreak? (c :: rest) with
    | some kept =>
      have breaks := arrowBreak?_eq_some_iff.1 here
      constructor
      · intro found
        exact ⟨0, kept, breaks, (Option.some.inj found).symm, fun m less => absurd less (Nat.not_lt_zero m)⟩
      · rintro ⟨n, kept', breaks', rfl, first⟩
        obtain rfl : n = 0 := by
          by_contra later
          exact first 0 (Nat.pos_of_ne_zero later) kept breaks
        have same := here.symm.trans (arrowBreak?_eq_some_iff.2 breaks')
        rw [Option.some.inj same]
        rfl
    | none =>
      have none (kept : Nat) : ¬ Break (c :: rest) kept := by
        intro breaks
        rw [arrowBreak?_eq_some_iff.2 breaks] at here
        contradiction
      show arrowBreakFrom? (i + 1) rest = some stop ↔ _
      rw [ih]
      constructor
      · rintro ⟨n, kept, breaks, rfl, first⟩
        refine ⟨n + 1, kept, breaks, by omega, ?_⟩
        intro m less
        cases m with
        | zero => exact none
        | succ m => exact first m (by omega)
      · rintro ⟨n, kept, breaks, rfl, first⟩
        cases n with
        | zero => exact absurd breaks (none kept)
        | succ n => exact ⟨n, kept, breaks, by omega, fun m less => first (m + 1) (by omega)⟩

section Breaks

variable {source : List Char} {start middle stop : Nat}

theorem arrowBreakFrom?_drop_iff :
    arrowBreakFrom? start (source.drop start) = some stop ↔ BreaksFirst source start stop := by
  rw [arrowBreakFrom?_eq_some_iff]
  simp only [List.drop_drop]
  constructor
  · rintro ⟨n, kept, breaks, rfl, first⟩
    refine ⟨start + n, kept, Nat.le_add_right .., ?_, breaks, rfl⟩
    intro i behind less
    obtain ⟨m, rfl⟩ := Nat.exists_eq_add_of_le behind
    exact first m (by omega)
  · rintro ⟨i, kept, behind, unbroken, breaks, rfl⟩
    obtain ⟨n, rfl⟩ := Nat.exists_eq_add_of_le behind
    exact ⟨n, kept, breaks, rfl, fun m less => unbroken (start + m) (by omega) (by omega)⟩

theorem exists_breaksFirst {i kept : Nat} (behind : start ≤ i) (breaks : Break (source.drop i) kept) :
    ∃ stop, BreaksFirst source start stop ∧ stop ≤ i + kept := by
  induction i using Nat.strong_induction_on generalizing kept with
  | _ i ih =>
    by_cases unbroken : Unbroken source start i
    · exact ⟨i + kept, ⟨i, kept, behind, unbroken, breaks, rfl⟩, Nat.le_refl _⟩
    · simp only [Unbroken, not_forall, not_not] at unbroken
      obtain ⟨j, later, less, kept', earlier⟩ := unbroken
      obtain ⟨stop, first, bound⟩ := ih j less later earlier
      have single := earlier.head.2
      exact ⟨stop, first, by omega⟩

theorem arrowBreakFrom?_eq_none_iff :
    arrowBreakFrom? start (source.drop start) = none ↔ ∀ later, Unbroken source start later := by
  constructor
  · intro none later i behind _ kept breaks
    obtain ⟨stop, first, _⟩ := exists_breaksFirst behind breaks
    rw [arrowBreakFrom?_drop_iff.2 first] at none
    contradiction
  · intro unbroken
    cases found : arrowBreakFrom? start (source.drop start) with
    | none => rfl
    | some stop =>
      obtain ⟨i, kept, behind, _, breaks, _⟩ := arrowBreakFrom?_drop_iff.1 found
      exact absurd breaks (unbroken (i + 1) i behind (Nat.lt_succ_self i) kept)

theorem breaksFirst_iff_of_unbroken (before : start ≤ middle) (unbroken : Unbroken source start middle) :
    BreaksFirst source start stop ↔ BreaksFirst source middle stop := by
  constructor
  · rintro ⟨i, kept, behind, passed, breaks, same⟩
    have beyond : middle ≤ i := by
      by_contra less
      exact unbroken i behind (by omega) kept breaks
    exact ⟨i, kept, beyond, fun j later => passed j (by omega), breaks, same⟩
  · rintro ⟨i, kept, beyond, passed, breaks, same⟩
    refine ⟨i, kept, by omega, ?_, breaks, same⟩
    intro j behind less
    by_cases inside : j < middle
    · exact unbroken j behind inside
    · exact passed j (by omega) less

end Breaks

instance (source : List Char) (start stop : Nat) : Decidable (Unbroken source start stop) :=
  decidable_of_iff (∀ i, i < stop → start ≤ i → arrowBreak? (source.drop i) = none) (by
    simp only [Unbroken, ← arrowBreak?_eq_some_iff, ← ne_eq, ← Option.eq_none_iff_forall_ne_some]
    exact forall_congr' fun i => Imp.swap)

/-! A body in braces. -/

/-- Behind the offset, after blanks, stands a balanced body in braces. -/
def Braced (source : List Char) (arrowStop : Nat) : Prop :=
  ∃ gap inside rest, source.drop arrowStop = gap ++ '\x7b' :: (inside ++ '\x7d' :: rest) ∧
    (∀ c ∈ gap, isBlank c = true) ∧ Balanced braces inside

theorem braced_iff {source : List Char} {arrowStop : Nat} (i : Nat) :
    Braced source arrowStop ↔
      (trimStart (source.drop arrowStop)).head? = some '\x7b' ∧
        ∃ stop, braceEnd defaultQuotes .code 0 i (trimStart (source.drop arrowStop)) = some stop := by
  constructor
  · rintro ⟨gap, inside, rest, same, blank, balanced⟩
    have reached : trimStart (source.drop arrowStop) = '\x7b' :: (inside ++ '\x7d' :: rest) := by
      rw [same]
      exact trimStart_gap (w := ['\x7b']) blank (by decide) _
    rw [reached, braceEnd_default]
    exact ⟨rfl, _, unitEnd_eq_some_iff.2 ⟨inside, rest, rfl, balanced, rfl⟩⟩
  · rintro ⟨first, stop, ends⟩
    obtain ⟨behind, reached⟩ := List.head?_eq_some_iff.1 first
    rw [reached, braceEnd_default] at ends
    obtain ⟨inside, rest, rfl, balanced, _⟩ := unitEnd_eq_some_iff.1 ends
    refine ⟨(source.drop arrowStop).takeWhile isBlank, inside, rest, ?_, ?_, balanced⟩
    · exact List.takeWhile_append_dropWhile.symm.trans (congrArg (_ ++ ·) reached)
    · exact fun c member => List.mem_takeWhile_imp member

instance (source : List Char) (arrowStop : Nat) : Decidable (Braced source arrowStop) :=
  have : Decidable (∃ stop, braceEnd defaultQuotes .code 0 0 (trimStart (source.drop arrowStop)) = some stop) :=
    decidable_of_iff _ Option.isSome_iff_exists
  decidable_of_iff _ (braced_iff 0).symm

theorem arrowEnd_of_not_braced {source : List Char} {start arrowStop : Nat} (unbraced : ¬ Braced source arrowStop) :
    arrowEnd source start arrowStop =
      (arrowBreakFrom? start (source.drop start)).getD (min source.length (start + arrowCap)) := by
  have none : (if (trimStart (source.drop arrowStop)).head? = some '\x7b' then
      braceEnd defaultQuotes .code 0
        (arrowStop + ((source.drop arrowStop).length - (trimStart (source.drop arrowStop)).length))
        (trimStart (source.drop arrowStop)) else none) = none := by
    split
    · next first =>
      rw [Option.eq_none_iff_forall_ne_some]
      intro stop ends
      exact unbraced ((braced_iff _).2 ⟨first, stop, ends⟩)
    · rfl
  simp only [arrowEnd, none]
  cases arrowBreakFrom? start (source.drop start) <;> rfl

theorem arrowEnd_of_braced {source gap inside rest : List Char} {arrowStop : Nat}
    (same : source.drop arrowStop = gap ++ '\x7b' :: (inside ++ '\x7d' :: rest)) (blank : ∀ c ∈ gap, isBlank c = true)
    (balanced : Balanced braces inside) (start : Nat) :
    arrowEnd source start arrowStop =
      arrowStop + gap.length + inside.length + 2 + if rest.head? = some ';' then 1 else 0 := by
  have reached : trimStart (source.drop arrowStop) = '\x7b' :: (inside ++ '\x7d' :: rest) := by
    rw [same]
    exact trimStart_gap (w := ['\x7b']) blank (by decide) _
  have offset : arrowStop + ((source.drop arrowStop).length - (trimStart (source.drop arrowStop)).length) =
      arrowStop + gap.length := by
    rw [reached, same, List.length_append, Nat.add_sub_cancel]
  have ends : braceEnd defaultQuotes .code 0 (arrowStop + gap.length) (trimStart (source.drop arrowStop)) =
      some (arrowStop + gap.length + inside.length + 2) := by
    rw [reached, braceEnd_default]
    exact unitEnd_eq_some_iff.2 ⟨inside, rest, rfl, balanced, rfl⟩
  have behind : source.drop (arrowStop + gap.length + inside.length + 2) = rest := by
    have split : gap ++ '\x7b' :: (inside ++ '\x7d' :: rest) = (gap ++ '\x7b' :: (inside ++ ['\x7d'])) ++ rest := by simp
    have length : arrowStop + gap.length + inside.length + 2 =
        arrowStop + (gap ++ '\x7b' :: (inside ++ ['\x7d'])).length := by
      simp only [List.length_append, List.length_cons, List.length_nil]
      omega
    rw [length, ← List.drop_drop, same, split, List.drop_left]
  simp only [arrowEnd, offset, ends, behind, show (trimStart (source.drop arrowStop)).head? = some '\x7b' by
    rw [reached]; rfl, if_true]
  split <;> rfl

/-! Heads of bindings and their texts. -/

/-- Where the text of a binding without a body in braces ends when it is whole: behind its arrow, at the first end of
a binding there, or else at the greatest length. -/
def IsBindingEnd (source : List Char) (start arrowStop stop : Nat) : Prop :=
  arrowStop ≤ stop ∧ (BreaksFirst source arrowStop stop ∨
    (∀ later, Unbroken source arrowStop later) ∧ stop = min source.length (start + arrowCap))

/-- Nothing in the head ends a binding, and when nothing behind the head does either, the head is within the greatest
length. -/
def HeadKept (source : List Char) (start arrowStop : Nat) : Prop :=
  Unbroken source start arrowStop ∧ ((∃ stop, BreaksFirst source arrowStop stop) ∨ arrowStop ≤ start + arrowCap)

theorem arrowHead_first {taken : List Char} (takes : arrowHead.Takes taken) : "export".toList <+: taken := by
  obtain ⟨a, b, rfl, word, _⟩ := takes
  exact ⟨b, congrArg (· ++ b) (show a = "export".toList from word).symm⟩

theorem arrowHead_last {taken : List Char} (takes : arrowHead.Takes taken) : ∃ lead, taken = lead ++ "=>".toList := by
  obtain ⟨lead, last, rfl, arrow⟩ := takes_last takes rfl
  exact ⟨lead, congrArg (lead ++ ·) arrow⟩

section Binding

variable {before taken rest : List Char}

theorem head?_drop_head {i : Nat} (less : i < taken.length) :
    ((before ++ (taken ++ rest)).drop (before.length + i)).head? = taken[i]? := by
  rw [List.drop_length_add_append, List.head?_drop, List.getElem?_append_left less]

theorem lt_of_breaksFirst (takes : arrowHead.Takes taken) {stop : Nat}
    (first : BreaksFirst (before ++ (taken ++ rest)) before.length stop)
    (broken : ¬ Unbroken (before ++ (taken ++ rest)) before.length (before.length + taken.length)) :
    stop < before.length + taken.length := by
  obtain ⟨i, kept, behind, unbroken, breaks, rfl⟩ := first
  have inside : i < before.length + taken.length := by
    by_contra beyond
    exact broken fun j later less => unbroken j later (by omega)
  obtain ⟨n, rfl⟩ := Nat.exists_eq_add_of_le behind
  have less : n < taken.length := by omega
  obtain ⟨sign, bound⟩ := breaks.head
  rw [head?_drop_head less] at sign
  have last : n ≠ taken.length - 1 := by
    rintro rfl
    obtain ⟨lead, same⟩ := arrowHead_last takes
    have arrow : taken[taken.length - 1]? = some '>' := by
      rw [← List.getLast?_eq_getElem?, same, List.getLast?_append]
      rfl
    rw [arrow] at sign
    split at sign <;> exact absurd (Option.some.inj sign) (by decide)
  omega

theorem isBindingEnd_of_kept {source : List Char} {start arrowStop : Nat} (order : start ≤ arrowStop)
    (within : arrowStop ≤ source.length) (unbraced : ¬ Braced source arrowStop)
    (kept : HeadKept source start arrowStop) : IsBindingEnd source start arrowStop (arrowEnd source start arrowStop) := by
  obtain ⟨unbroken, ends⟩ := kept
  rw [arrowEnd_of_not_braced unbraced]
  cases found : arrowBreakFrom? start (source.drop start) with
  | some stop =>
    have first := (breaksFirst_iff_of_unbroken order unbroken).1 (arrowBreakFrom?_drop_iff.1 found)
    refine ⟨?_, .inl first⟩
    obtain ⟨i, kept, behind, _, _, same⟩ := first
    rw [Option.getD_some]
    omega
  | none =>
    have behind (later : Nat) : Unbroken source arrowStop later := by
      intro i far
      exact arrowBreakFrom?_eq_none_iff.1 found later i (by omega)
    refine ⟨?_, .inr ⟨behind, rfl⟩⟩
    rcases ends with ⟨stop, i, kept, far, _, breaks, _⟩ | short
    · exact absurd breaks (behind (i + 1) i far (Nat.lt_succ_self i) kept)
    · exact Nat.le_min.2 ⟨within, short⟩

theorem headKept_of_le (takes : arrowHead.Takes taken)
    (unbraced : ¬ Braced (before ++ (taken ++ rest)) (before.length + taken.length))
    (later : before.length + taken.length ≤
      arrowEnd (before ++ (taken ++ rest)) before.length (before.length + taken.length)) :
    HeadKept (before ++ (taken ++ rest)) before.length (before.length + taken.length) := by
  rw [arrowEnd_of_not_braced unbraced] at later
  have unbroken : Unbroken (before ++ (taken ++ rest)) before.length (before.length + taken.length) := by
    by_contra broken
    obtain ⟨stop, first⟩ : ∃ stop, BreaksFirst (before ++ (taken ++ rest)) before.length stop := by
      simp only [Unbroken, not_forall, not_not] at broken
      obtain ⟨i, behind, _, _, breaks⟩ := broken
      exact (exists_breaksFirst behind breaks).imp fun _ first => first.1
    rw [arrowBreakFrom?_drop_iff.2 first, Option.getD_some] at later
    exact absurd (lt_of_breaksFirst takes first broken) (Nat.not_lt.2 later)
  refine ⟨unbroken, ?_⟩
  cases found : arrowBreakFrom? before.length ((before ++ (taken ++ rest)).drop before.length) with
  | some stop =>
    have first := arrowBreakFrom?_drop_iff.1 found
    exact .inl ⟨stop, (breaksFirst_iff_of_unbroken (Nat.le_add_right ..) unbroken).1 first⟩
  | none =>
    rw [found, Option.getD_none] at later
    exact .inr (Nat.le_trans later (Nat.min_le_right ..))

theorem head_prefix_trim_iff (takes : arrowHead.Takes taken) (stop : Nat) :
    taken <+: trim (slice (before ++ (taken ++ rest)) before.length stop) ↔
      before.length + taken.length ≤ stop := by
  rw [slice, List.drop_left]
  obtain ⟨lead, arrow⟩ := arrowHead_last takes
  have long : 0 < taken.length := by simp [arrow]
  constructor
  · intro start
    have bound := (start.trans (trimEnd_isPrefix _)).length_le.trans (trimStart_isSuffix _).length_le
    rw [List.length_take] at bound
    omega
  · intro later
    have start : taken <+: (taken ++ rest).take (stop - before.length) :=
      List.prefix_take_iff.2 ⟨List.prefix_append .., by omega⟩
    have first : trimStart ((taken ++ rest).take (stop - before.length)) =
        (taken ++ rest).take (stop - before.length) := by
      obtain ⟨behind, same⟩ := (arrowHead_first takes).trans start
      rw [← same]
      apply trimStart_of_inked
      intro c letter
      obtain rfl : 'e' = c := Option.some.inj letter
      decide
    rw [trim, first]
    exact prefix_trimEnd start (by rw [arrow, List.getLast?_append]; rfl) (by decide)

end Binding

/-- The text of a binding without a body in braces ends where it should just when nothing in the head ends one; then
the block has the whole head. -/
theorem arrowBlock?_keeps_head_iff {file : File} {m : Found} (member : m ∈ arrowHead.findAll file.source)
    (unbraced : ¬ Braced file.source m.stop) :
    (∃ lead, slice file.source m.start m.stop = lead ++ "=>".toList) ∧
      (IsBindingEnd file.source m.start m.stop (arrowEnd file.source m.start m.stop) ↔
        HeadKept file.source m.start m.stop) ∧
      ∀ b, arrowBlock? file m = some b →
        b.code = String.ofList (trim (slice file.source m.start (arrowEnd file.source m.start m.stop))) ∧
        (slice file.source m.start m.stop <+: b.code.toList ↔ HeadKept file.source m.start m.stop) := by
  obtain ⟨before, taken, rest, same, takes, start, stop⟩ := exists_taken_of_mem_findAll member
  have head : slice file.source m.start m.stop = taken := by
    rw [same, start, stop]
    exact slice_append before taken rest
  have kept : m.stop ≤ arrowEnd file.source m.start m.stop → HeadKept file.source m.start m.stop := by
    rw [stop, same] at unbraced
    rw [start, stop, same]
    exact headKept_of_le takes unbraced
  have ends : HeadKept file.source m.start m.stop →
      IsBindingEnd file.source m.start m.stop (arrowEnd file.source m.start m.stop) := by
    apply isBindingEnd_of_kept (by omega) _ unbraced
    rw [same, stop, List.length_append, List.length_append]
    omega
  refine ⟨head ▸ arrowHead_last takes, ⟨fun whole => kept whole.1, ends⟩, ?_⟩
  intro b found
  have code : b.code = String.ofList (trim (slice file.source m.start (arrowEnd file.source m.start m.stop))) :=
    (Block.ofCode?_fields found).2.2.2.1
  refine ⟨code, ?_⟩
  rw [head, code, String.toList_ofList]
  have covers : taken <+: trim (slice file.source m.start (arrowEnd file.source m.start m.stop)) ↔
      m.stop ≤ arrowEnd file.source m.start m.stop := by
    rw [start, stop, same]
    exact head_prefix_trim_iff takes _
  exact covers.trans ⟨kept, fun whole => (ends whole).1⟩

def halves : File :=
  ⟨"f", "export const twice = (n: number) => n + n;\n\nexport const half = (n: number) => n / 2;\n".toList,
    "typescript"⟩

theorem twice_keeps_head : ∃ m ∈ arrowHead.findAll halves.source, ¬ Braced halves.source m.stop ∧
    HeadKept halves.source m.start m.stop ∧
    IsBindingEnd halves.source m.start m.stop (arrowEnd halves.source m.start m.stop) := by
  obtain ⟨m, member, start, stop⟩ : ∃ m ∈ arrowHead.findAll halves.source, m.start = 0 ∧ m.stop = 35 := by
    decide +kernel
  have unbraced : ¬ Braced halves.source m.stop := by
    rw [stop]
    decide +kernel
  have kept : HeadKept halves.source m.start m.stop := by
    have ends : arrowBreakFrom? 35 (halves.source.drop 35) = some 42 := by decide +kernel
    rw [start, stop]
    exact ⟨by decide +kernel, .inl ⟨42, arrowBreakFrom?_drop_iff.1 ends⟩⟩
  exact ⟨m, member, unbraced, kept, (arrowBlock?_keeps_head_iff member unbraced).2.1.2 kept⟩

def area : File :=
  ⟨"f", "export const area = (box: \x7b\n  w: number;\n\n  h: number;\n\x7d) => box.w * box.h;\n".toList, "typescript"⟩

theorem area_head_cut : ∃ m ∈ arrowHead.findAll area.source, ¬ Braced area.source m.stop ∧
    ∃ b ∈ arrowBlock? area m, b.code = "export const area = (box: \x7b\n  w: number;" ∧
      ¬ slice area.source m.start m.stop <+: b.code.toList := by
  decide +kernel

end CodeDeck.Extract.Curly
