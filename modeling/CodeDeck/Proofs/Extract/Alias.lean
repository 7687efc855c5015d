import CodeDeck.Proofs.Extract.Stands

/-! Interfaces and type aliases: their blocks end within their own texts. -/

namespace CodeDeck.Extract.Curly

open CodeDeck.Text CodeDeck.Pattern CodeDeck.Scan

section Alias

variable {source before gap later : List Char}

theorem interface_own {text : List Char} (stands : Stands source before (.interface text) gap later)
    (other : List Char) :
    IsOwn (.interface text) gap later ((braceBlock? source before.length before.length defaultQuotes).getD other) := by
  cases stands.formed.complete with
  | interface braced =>
    obtain ⟨stop, ends, bound⟩ :=
      braceEnd_first stands.formed.balanced stands.bare braced before.length (gap ++ later)
    rw [← stands.drop] at ends
    obtain ⟨code, found, own⟩ := stands.braceBlock?_own ends bound
    rw [found]
    exact own

theorem aliasCode_cases (source : List Char) (start : Nat) :
    let rest := source.drop start
    let semicolon := index? [';'] rest 0
    let brace := (index? ['='] rest 0).bind (index? ['\x7b'] rest)
    (∃ b, brace = some b ∧ (∀ s, semicolon = some s → b < s) ∧
      aliasCode source start = (braceBlock? source start (start + b) defaultQuotes).getD (rest.take typeCap)) ∨
    (∃ s, semicolon = some s ∧ (∀ b, brace = some b → s ≤ b) ∧ aliasCode source start = rest.take (s + 1)) ∨
    brace = none ∧ semicolon = none ∧
      aliasCode source start = rest.take ((index? ['\n', '\n'] rest 0).getD typeCap) := by
  simp only [aliasCode]
  cases brace : (index? ['='] (source.drop start) 0).bind (index? ['\x7b'] (source.drop start)) with
  | none =>
    cases semicolon : index? [';'] (source.drop start) 0 with
    | none =>
      refine .inr (.inr ⟨rfl, rfl, ?_⟩)
      cases index? ['\n', '\n'] (source.drop start) 0 <;> simp
    | some s => exact .inr (.inl ⟨s, rfl, by simp, by simp⟩)
  | some b =>
    cases semicolon : index? [';'] (source.drop start) 0 with
    | none => exact .inl ⟨b, rfl, by simp, by simp⟩
    | some s =>
      by_cases first : b < s
      · exact .inl ⟨b, rfl, by simpa using first, by simp [first]⟩
      · exact .inr (.inl ⟨s, rfl, by simpa using Nat.not_lt.1 first, by simp [first]⟩)

theorem exists_aliasCode (source : List Char) (start : Nat) :
    ∃ n, aliasCode source start = (source.drop start).take n := by
  rcases aliasCode_cases source start with ⟨b, _, _, code⟩ | ⟨s, _, _, code⟩ | ⟨_, _, code⟩
  · rw [code, braceBlock?]
    cases braceEnd defaultQuotes .code 0 (start + b) (source.drop (start + b)) with
    | none => exact ⟨typeCap, rfl⟩
    | some stop => exact ⟨stop - start, rfl⟩
  · exact ⟨_, code⟩
  · exact ⟨_, code⟩

section Marks

variable {front type after : List Char}

theorem index?_of_mem {c : Char} {s : List Char} (member : c ∈ s) (t : List Char) :
    ∃ lead rest, s = lead ++ c :: rest ∧ index? [c] (s ++ t) 0 = some lead.length := by
  obtain ⟨lead, rest, rfl, absent⟩ := List.eq_append_cons_of_mem member
  have found := index?_single absent [] (rest ++ t)
  refine ⟨lead, rest, rfl, ?_⟩
  simpa using found

theorem bind_index?_equals (bound : '=' ∉ front) :
    (index? ['='] (front ++ ('=' :: type ++ after)) 0).bind (index? ['\x7b'] (front ++ ('=' :: type ++ after))) =
      index? ['\x7b'] (front ++ ('=' :: type ++ after)) front.length := by
  have first := index?_single bound [] (type ++ after)
  have equals : index? ['='] (front ++ ('=' :: type ++ after)) 0 = some front.length := by simpa using first
  rw [equals, Option.bind_some]

theorem index?_brace_of_mem (braced : '\x7b' ∈ '=' :: type) :
    ∃ lead rest, '=' :: type = lead ++ '\x7b' :: rest ∧
      index? ['\x7b'] (front ++ ('=' :: type ++ after)) front.length = some (front.length + lead.length) := by
  obtain ⟨lead, rest, same, absent⟩ := List.eq_append_cons_of_mem braced
  refine ⟨lead, rest, same, ?_⟩
  rw [same, List.append_assoc]
  exact index?_single absent front (rest ++ after)

theorem mem_of_index?_brace (plain : '\x7b' ∉ '=' :: type) {b : Nat}
    (found : index? ['\x7b'] (front ++ ('=' :: type ++ after)) front.length = some b) :
    '\x7b' ∈ after ∧ (front ++ '=' :: type).length ≤ b := by
  obtain ⟨lead, rest, behind, absent, rfl⟩ := index?_eq_some found
  rw [List.drop_left] at behind
  have start : '=' :: type <+: lead ++ '\x7b' :: rest := ⟨after, behind⟩
  obtain ⟨more, rfl⟩ := (prefix_or_mem start).resolve_right plain
  have there : after = more ++ '\x7b' :: rest := by
    rw [List.append_assoc] at behind
    exact List.append_cancel_left behind
  refine ⟨by rw [there]; simp, ?_⟩
  simp only [List.length_append]
  omega

end Marks

section Told

variable {front type : List Char} (stands : Stands source before (.typeAlias (front ++ '=' :: type)) gap later)
include stands

theorem Stands.drop_alias : source.drop before.length = front ++ ('=' :: type ++ (gap ++ later)) := by
  rw [stands.drop]
  exact List.append_assoc ..

theorem Stands.exists_semicolon (ended : ';' ∈ front ++ '=' :: type) :
    ∃ lead rest, front ++ '=' :: type = lead ++ ';' :: rest ∧
      index? [';'] (source.drop before.length) 0 = some lead.length :=
  stands.drop ▸ index?_of_mem ended (gap ++ later)

theorem Stands.exists_brace_behind_equals (braced : '\x7b' ∈ '=' :: type) :
    ∃ lead rest, '=' :: type = lead ++ '\x7b' :: rest ∧
      index? ['\x7b'] (source.drop before.length) front.length = some (front.length + lead.length) :=
  stands.drop_alias ▸ index?_brace_of_mem braced

theorem Stands.notMem_behind {c : Char} (inked : isBlank c = false) (absent : c ∉ later) : c ∉ gap ++ later := by
  intro member
  rcases List.mem_append.1 member with inGap | inLater
  · rw [stands.blank c inGap] at inked
    contradiction
  · exact absent inLater

section Ends

variable (ends : '\x7b' ∈ '=' :: type ∨ ';' ∈ front ++ '=' :: type ∨
  "\n\n".toList <:+: gap ∧ ';' ∉ later ∧ '\x7b' ∉ later)
include ends

theorem Stands.braced_own {b : Nat} (braced : index? ['\x7b'] (source.drop before.length) front.length = some b)
    (earlier : ∀ s, index? [';'] (source.drop before.length) 0 = some s → b < s) (other : List Char) :
    IsOwn (.typeAlias (front ++ '=' :: type)) gap later
      ((braceBlock? source before.length (before.length + b) defaultQuotes).getD other) := by
  have inside : '\x7b' ∈ '=' :: type := by
    by_contra plain
    rw [stands.drop_alias] at braced
    obtain ⟨behind, far⟩ := mem_of_index?_brace plain braced
    rcases ends with own | ended | ⟨_, _, absent⟩
    · exact plain own
    · obtain ⟨lead, rest, split, found⟩ := stands.exists_semicolon ended
      have less := earlier _ found
      rw [split, List.length_append] at far
      omega
    · exact stands.notMem_behind (by decide) absent behind
  obtain ⟨lead, rest, split, found⟩ := stands.exists_brace_behind_equals inside
  obtain rfl : b = front.length + lead.length := Option.some.inj (braced.symm.trans found)
  have opens : (Shape.typeAlias (front ++ '=' :: type)).text = (front ++ lead) ++ '\x7b' :: rest := by
    rw [Shape.text, split, List.append_assoc]
  obtain ⟨cut, block, own⟩ := stands.braceBlock?_unit opens (by rw [List.length_append])
  rw [block]
  exact own

theorem Stands.ended_own {s : Nat} (ended : index? [';'] (source.drop before.length) 0 = some s)
    (earlier : ∀ b, index? ['\x7b'] (source.drop before.length) front.length = some b → s ≤ b) :
    IsOwn (.typeAlias (front ++ '=' :: type)) gap later ((source.drop before.length).take (s + 1)) := by
  have near : s < (front ++ '=' :: type).length := by
    by_cases member : ';' ∈ front ++ '=' :: type
    · obtain ⟨lead, rest, split, found⟩ := stands.exists_semicolon member
      obtain rfl : s = lead.length := Option.some.inj (ended.symm.trans found)
      rw [split, List.length_append, List.length_cons]
      omega
    rcases ends with own | own | ⟨_, absent, _⟩
    · obtain ⟨lead, rest, split, found⟩ := stands.exists_brace_behind_equals own
      have le := earlier _ found
      rw [split, List.length_append, List.length_append, List.length_cons]
      omega
    · exact absurd own member
    · obtain ⟨lead, rest, split, _⟩ := index?_eq_some ended
      rw [List.drop_zero, stands.drop] at split
      have inside : ';' ∈ (front ++ '=' :: type) ++ (gap ++ later) := split ▸ by simp
      exact absurd ((List.mem_append.1 inside).resolve_left member) (stands.notMem_behind (by decide) absent)
  refine ⟨s + 1, by rw [stands.drop], .inl ?_⟩
  show s + 1 ≤ (front ++ '=' :: type).length + gap.length
  omega

end Ends

theorem Stands.spaced_own (spaced : "\n\n".toList <:+: gap) (other : Nat) :
    IsOwn (.typeAlias (front ++ '=' :: type)) gap later
      ((source.drop before.length).take ((index? ['\n', '\n'] (source.drop before.length) 0).getD other)) := by
  obtain ⟨lead, tail, same⟩ := spaced
  have empty : ['\n', '\n'] <+: (source.drop before.length).drop ((front ++ '=' :: type) ++ lead).length := by
    have split : source.drop before.length = ((front ++ '=' :: type) ++ lead) ++ ("\n\n".toList ++ (tail ++ later)) := by
      rw [stands.drop, ← same, Shape.text]
      simp only [List.append_assoc]
    rw [split, List.drop_left]
    exact List.prefix_append ..
  obtain ⟨k, found, le⟩ := exists_indexFrom?_le empty 0
  have line : index? ['\n', '\n'] (source.drop before.length) 0 = some k := by
    rw [index?, List.drop_zero, found, Nat.zero_add]
  rw [line, Option.getD_some]
  refine ⟨k, by rw [stands.drop], .inl ?_⟩
  have room : lead.length ≤ gap.length := by
    rw [← same, List.length_append, List.length_append]
    omega
  rw [List.length_append] at le
  show k ≤ (front ++ '=' :: type).length + gap.length
  omega

end Told

theorem aliasCode_own {text : List Char} (stands : Stands source before (.typeAlias text) gap later) :
    IsOwn (.typeAlias text) gap later (aliasCode source before.length) := by
  cases stands.formed.complete with
  | typeAlias bound =>
    obtain ⟨front, type, rfl, first⟩ := List.eq_append_cons_of_mem bound
    rcases stands.next with last | ⟨_, _, told⟩
    · obtain ⟨n, code⟩ := exists_aliasCode source before.length
      rw [stands.drop] at code
      exact ⟨n, code, .inr last⟩
    have same : (front ++ '=' :: type).dropWhile (· ≠ '=') = '=' :: type := by
      rw [List.dropWhile_append_of_pos (by simpa using List.forall_mem_ne'.2 first)]
      simp
    have ends : '\x7b' ∈ '=' :: type ∨ ';' ∈ front ++ '=' :: type ∨
        "\n\n".toList <:+: gap ∧ ';' ∉ later ∧ '\x7b' ∉ later := by
      rw [Shape.Told, same] at told
      exact told
    have equals : (index? ['='] (source.drop before.length) 0).bind (index? ['\x7b'] (source.drop before.length)) =
        index? ['\x7b'] (source.drop before.length) front.length := stands.drop_alias ▸ bind_index?_equals first
    rcases aliasCode_cases source before.length with ⟨b, braced, earlier, code⟩ | ⟨s, ended, earlier, code⟩ |
      ⟨noBrace, noSemicolon, code⟩
    · rw [code]
      exact stands.braced_own ends (equals.symm.trans braced) earlier _
    · rw [code]
      exact stands.ended_own ends ended fun b found => earlier b (equals.trans found)
    · rcases ends with own | own | ⟨spaced, _, _⟩
      · obtain ⟨_, _, _, found⟩ := stands.exists_brace_behind_equals own
        rw [equals, found] at noBrace
        contradiction
      · obtain ⟨_, _, _, found⟩ := stands.exists_semicolon own
        rw [found] at noSemicolon
        contradiction
      · rw [code]
        exact stands.spaced_own spaced _

end Alias

theorem typeHead_spares : Spares typeHead typeBlock? := by
  intro file before gap later d limit previous m b stands matched made
  obtain ⟨_, _, _, _, start, _⟩ := exists_taken_of_matchAt? matched
  obtain ⟨key, found, keyed⟩ := stands.keyword
  obtain ⟨own, listed⟩ := typeHead_keyword matched
  obtain rfl : key = m.get 1 := Option.some.inj (found.symm.trans own)
  simp only [typeBlock?, show m.start = before.length from start] at made
  cases d with
  | interface text =>
    rw [if_pos (show m.get 1 = "interface".toList from keyed)] at made
    exact (interface_own stands _).code_starts stands made
  | typeAlias text =>
    rw [if_neg (by rw [show m.get 1 = "type".toList from keyed]; decide)] at made
    exact (aliasCode_own stands).code_starts stands made
  | function =>
    have starts : "function".toList <+: m.get 1 := keyed
    rcases listed with key | key <;> rw [key] at starts <;> exact absurd starts (by decide)
  | arrow =>
    have const : m.get 1 = "const".toList := keyed
    rcases listed with key | key <;> exact absurd (const.symm.trans key) (by decide)
  | concept =>
    have class_ : m.get 1 = "class".toList := keyed
    rcases listed with key | key <;> exact absurd (class_.symm.trans key) (by decide)

end CodeDeck.Extract.Curly
