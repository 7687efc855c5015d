import CodeDeck.Proofs.Extract.Declaration
import CodeDeck.Proofs.Extract.Exported
import CodeDeck.Proofs.Extract.Grammar

/-! Declarations recovered from their source. Exported functions and classes, one below the other, give back
exactly these: the functions in their order, then the classes, each with its text and nothing else of the file. -/

namespace CodeDeck.Extract.Curly

open CodeDeck.Text CodeDeck.Pattern CodeDeck.Scan

/-! What the patterns take of a declaration. -/

theorem functionHead_takes {name : List Char} (named : name ≠ []) (word : ∀ c ∈ name, isWord c = true)
    (rest : List Char) :
    functionHead.Prefers ("export function ".toList ++ (name ++ ['('])) rest [(1, name)] := by
  obtain ⟨c, letters, rfl⟩ := List.exists_cons_of_ne_nil named
  have letter : isWord c = true := word c List.mem_cons_self
  have plain : isBlank c = false := isBlank_of_isWord letter
  have noStar : ¬ (Pattern.word "*").Starts ([] ++ (c :: letters ++ ([] ++ ([] ++ ([] ++ "(".toList)))) ++ rest) := by
    intro starts
    have same : '*' = c := (List.cons_prefix_cons.1 starts.text).1
    rw [← same] at letter
    contradiction
  have closing : (Pattern.both blanks (.both (optional (enclosed '<' '>' (except '>')))
      (.both blanks (Pattern.word "(")))).Prefers ([] ++ ([] ++ ([] ++ "(".toList))) rest [] := by
    apply (prefers_no_blank rfl (by decide)).lead
    apply (prefers_without (mt Starts.opening (by simp))).lead
    apply (prefers_no_blank rfl (by decide)).lead
    exact prefers_text _ _
  show functionHead.Prefers ("export".toList ++ ([' '] ++ ([] ++ ([] ++ ("function".toList ++ ([' '] ++ ([] ++
    ([] ++ ((c :: letters) ++ ([] ++ ([] ++ ([] ++ "(".toList)))))))))))) rest [(1, c :: letters)]
  apply (prefers_text _ _).lead
  apply (prefers_space (by decide) rfl (by decide)).lead
  -- neither `default` nor `async`
  apply (prefers_without (mt Starts.opening (by simp))).lead
  apply (prefers_without (mt Starts.opening (by simp))).lead
  apply (prefers_text _ _).lead
  apply (prefers_space (by decide) rfl plain).lead
  apply (prefers_without noStar).lead
  apply (prefers_no_blank rfl plain).lead
  exact (prefers_name_before (List.cons_ne_nil _ _) word rfl (by decide)).both closing

theorem classHead_takes {name rest : List Char} {d : Char} (named : name ≠ [])
    (word : ∀ c ∈ name, isWord c = true) (ahead : rest.head? = some d) (stops : isWord d = false) :
    classHead.Prefers ("export class ".toList ++ name) rest [(1, name)] := by
  obtain ⟨c, letters, rfl⟩ := List.exists_cons_of_ne_nil named
  have plain : isBlank c = false := isBlank_of_isWord (word c List.mem_cons_self)
  show classHead.Prefers ("export".toList ++ ([' '] ++ ([] ++ ([] ++ ("class".toList ++ ([' '] ++
    (c :: letters))))))) rest [(1, c :: letters)]
  apply (prefers_text _ _).lead
  apply (prefers_space (by decide) rfl (by decide)).lead
  -- neither `default` nor `abstract`
  apply (prefers_without (mt Starts.opening (by simp))).lead
  apply (prefers_without (mt Starts.opening (by simp))).lead
  apply (prefers_text _ _).lead
  apply (prefers_space (by decide) rfl plain).lead
  exact prefers_name_before (List.cons_ne_nil _ _) word ahead stops

/-! A pattern among declarations. -/

/-- The pattern takes the heads of its own declarations and starts nowhere else. -/
structure Finds (p : Pattern) (own : Declaration → Bool) : Prop where
  takes : ∀ d : Declaration, d.WellFormed → own d = true → ∀ rest, p.Prefers d.head (d.tail ++ rest) [(1, d.name)]
  passes : ∀ d : Declaration, d.WellFormed → own d = false → ∀ rest, p.Quiet d.head (d.tail ++ rest)
  tail : ∀ d : Declaration, d.WellFormed → ∀ rest, p.Quiet d.tail rest
  newline : ∀ rest, p.Quiet ['\n'] rest

namespace Declaration

def keyword : Declaration → List Char
  | function .. => "function".toList
  | concept .. => "class".toList

theorem head_function (name parameters body : List Char) :
    (function name parameters body).head =
      "export ".toList ++ ("function".toList ++ [' ']) ++ (name ++ ['(']) := rfl

theorem head_concept (name body : List Char) :
    (concept name body).head = "export ".toList ++ ("class".toList ++ [' ']) ++ name := rfl

end Declaration

section Exports

variable {p : Pattern} {keywords : List String} (exports : ∀ {s}, p.Starts s → Exports keywords s)
include exports

theorem quiet_tail {d : Declaration} (formed : d.WellFormed) (rest : List Char) : p.Quiet d.tail rest := by
  apply Quiet.append
  · cases d with
    | function name parameters body => exact quiet_of_not_export exports formed.single.1 (by decide) _
    | concept name body => exact quiet_nil _
  · apply Quiet.append
    · exact quiet_of_not_export exports (s := [' ']) (by decide) (by decide) _
    · exact quiet_of_not_export exports formed.single.2 (by decide) _

theorem quiet_head {d : Declaration} (formed : d.WellFormed)
    (lettered : ∀ w ∈ keywords, w.toList.head?.any isLetter = true)
    (other : Unlike keywords d.keyword) (rest : List Char) : p.Quiet d.head (d.tail ++ rest) := by
  have closed {c : Char} (sign : isLetter c = false) (more : List Char) : ∀ w ∈ keywords, ¬ w.toList <+: c :: more :=
    fun w member => not_prefix_of_sign (lettered w member) sign more
  cases d with
  | function name parameters body =>
    have unlike : Unlike keywords "function".toList := other
    rw [Declaration.head_function]
    apply Quiet.append
    · exact quiet_keyword exports unlike (by decide) (by decide) _
    · apply Quiet.append
      · apply quiet_name exports formed.word
        · intro c first
          obtain rfl : '(' = c := Option.some.inj first
          decide
        · exact closed (by decide) _
      · exact quiet_of_not_export exports (s := []) (by decide) (by decide) _
  | concept name body =>
    have unlike : Unlike keywords "class".toList := other
    rw [Declaration.head_concept]
    apply Quiet.append
    · exact quiet_keyword exports unlike (by decide) (by decide) _
    · apply quiet_name exports formed.word
      · intro c first
        obtain rfl : ' ' = c := Option.some.inj first
        decide
      · exact closed (by decide) _

theorem finds_of_exports {own : Declaration → Bool}
    (lettered : ∀ w ∈ keywords, w.toList.head?.any isLetter = true)
    (foreign : ∀ d : Declaration, own d = false → Unlike keywords d.keyword)
    (takes : ∀ d : Declaration, d.WellFormed → own d = true →
      ∀ rest, p.Prefers d.head (d.tail ++ rest) [(1, d.name)]) : Finds p own where
  takes := takes
  passes := fun d formed other => quiet_head exports formed lettered (foreign d other)
  tail := fun _ formed => quiet_tail exports formed
  newline := quiet_of_not_export exports (s := []) (by decide) (by decide)

end Exports

theorem functionHead_finds : Finds functionHead (·.isFunction) := by
  apply finds_of_exports functionHead_exports (by decide)
  · intro d other
    cases d with
    | function => contradiction
    | concept =>
      show Unlike _ "class".toList
      decide
  · intro d formed own rest
    cases d with
    | function name parameters body => exact functionHead_takes formed.named formed.word _
    | concept => contradiction

theorem classHead_finds : Finds classHead (!·.isFunction) := by
  apply finds_of_exports classHead_exports (by decide)
  · intro d other
    cases d with
    | function =>
      show Unlike _ "function".toList
      decide
    | concept => contradiction
  · intro d formed own rest
    cases d with
    | function => contradiction
    | concept name body => exact classHead_takes formed.named formed.word rfl (by decide)

theorem finds_none {p : Pattern} {keywords : List String} (exports : ∀ {s}, p.Starts s → Exports keywords s)
    (lettered : ∀ w ∈ keywords, w.toList.head?.any isLetter = true)
    (function : Unlike keywords "function".toList) (concept : Unlike keywords "class".toList) :
    Finds p (fun _ => false) := by
  apply finds_of_exports exports lettered
  · intro d _
    cases d with
    | function => exact function
    | concept => exact concept
  · intro d _ own
    contradiction

theorem arrowHead_finds : Finds arrowHead (fun _ => false) :=
  finds_none arrowHead_exports (by decide) (by decide) (by decide)

theorem typeHead_finds : Finds typeHead (fun _ => false) :=
  finds_none typeHead_exports (by decide) (by decide) (by decide)

/-! The search through a source of declarations. -/

def source (items : List Declaration) : List Char := joinLines (items.map Declaration.text)

theorem source_cons_cons (d next : Declaration) (more : List Declaration) :
    source (d :: next :: more) = d.text ++ '\n' :: source (next :: more) := by
  simp only [source, joinLines, List.map_cons, List.intercalate_cons_cons, List.append_assoc,
    List.singleton_append]

/-- What a pattern finds of a declaration at offset `i`: the head, if the declaration is one of its own. -/
def headAt (own : Declaration → Bool) (i : Nat) (d : Declaration) : List Found :=
  if own d then [⟨i, i + d.head.length, [(1, d.name)]⟩] else []

def headsFrom (own : Declaration → Bool) : (i : Nat) → List Declaration → List Found
  | _, [] => []
  | i, d :: more => headAt own i d ++ headsFrom own (i + d.text.length + 1) more

theorem reverse_headAt (own : Declaration → Bool) (i : Nat) (d : Declaration) :
    (headAt own i d).reverse = headAt own i d := by
  rw [headAt]
  split <;> rfl

section Find

variable {p : Pattern} {own : Declaration → Bool} {limit : Nat}

theorem Declaration.head_ne_nil (d : Declaration) : d.head ≠ [] := by
  cases d <;> exact List.cons_ne_nil _ _

theorem Finds.findFrom_text (finds : Finds p own) {d : Declaration} (formed : d.WellFormed)
    (offset : Nat) (previous : Option Char) (found : List Found) (rest : List Char) :
    findFrom p limit 0 offset previous found (d.text ++ rest) =
      findFrom p limit 0 (offset + d.text.length) (lastOr d.text previous)
        (headAt own offset d ++ found) rest := by
  rw [Declaration.text_eq, List.append_assoc, lastOr_append, List.length_append, ← Nat.add_assoc]
  by_cases mine : own d = true
  · rw [findFrom_match (finds.takes d formed mine rest) d.head_ne_nil,
      findFrom_quiet (finds.tail d formed rest), headAt, if_pos mine]
    rfl
  · rw [Bool.not_eq_true] at mine
    rw [findFrom_quiet (finds.passes d formed mine rest), findFrom_quiet (finds.tail d formed rest), headAt, mine]
    rfl

theorem Finds.findFrom_source (finds : Finds p own) {items : List Declaration}
    (formed : ∀ d ∈ items, d.WellFormed) (offset : Nat) (previous : Option Char) (found : List Found) :
    findFrom p limit 0 offset previous found (source items) = found.reverse ++ headsFrom own offset items := by
  induction items generalizing offset previous found with
  | nil => simp [source, joinLines, findFrom, headsFrom]
  | cons d more ih =>
    obtain ⟨first, others⟩ := List.forall_mem_cons.1 formed
    cases more with
    | nil =>
      have whole : source [d] = d.text ++ [] := by simp [source, joinLines]
      rw [whole, finds.findFrom_text first, findFrom, List.reverse_append, reverse_headAt, headsFrom, headsFrom,
        List.append_nil]
    | cons next more =>
      have newline := finds.newline (source (next :: more))
      rw [source_cons_cons, finds.findFrom_text first, ← List.singleton_append, findFrom_quiet newline, ih others,
        List.reverse_append, reverse_headAt, List.append_assoc]
      rfl

theorem Finds.findAll_source (finds : Finds p own) {items : List Declaration}
    (formed : ∀ d ∈ items, d.WellFormed) : p.findAll (source items) = headsFrom own 0 items :=
  finds.findFrom_source formed 0 none []

end Find

section Blocks

variable {file : File} {before after : List Char} {own : Declaration → Bool} {block? : File → Found → Option Block}

theorem Cuts.filterMap_headAt (cuts : Cuts block? own) {d : Declaration} (formed : d.WellFormed)
    (open_ : (trimEnd before).getLast? ≠ some '/') (stands : file.source = before ++ (d.text ++ after)) :
    (headAt own before.length d).filterMap (block? file) =
      ([d].filter own).map (Declaration.block file.path file.language) := by
  by_cases mine : own d = true
  · rw [headAt, if_pos mine, List.filter_cons_of_pos mine,
      List.filterMap_cons_some (cuts file d before after formed mine open_ stands)]
    rfl
  · rw [headAt, if_neg mine, List.filter_cons_of_neg mine]
    rfl

theorem Cuts.filterMap_headsFrom (cuts : Cuts block? own) {items : List Declaration}
    (formed : ∀ d ∈ items, d.WellFormed) (open_ : (trimEnd before).getLast? ≠ some '/')
    (stands : file.source = before ++ source items) :
    (headsFrom own before.length items).filterMap (block? file) =
      (items.filter own).map (Declaration.block file.path file.language) := by
  -- on the declarations; those already passed stand in front of the rest of the source
  induction items generalizing before with
  | nil => rfl
  | cons d more ih =>
    obtain ⟨first, others⟩ := List.forall_mem_cons.1 formed
    rw [headsFrom, List.filterMap_append, ← List.singleton_append, List.filter_append, List.map_append]
    cases more with
    | nil =>
      have alone : file.source = before ++ (d.text ++ []) := by simpa [source, joinLines] using stands
      rw [cuts.filterMap_headAt first open_ alone]
      rfl
    | cons next more =>
      rw [source_cons_cons] at stands
      rw [cuts.filterMap_headAt first open_ stands]
      congr 1
      have passed := ih others (d.closed_behind before) (by rw [stands]; simp)
      simpa only [List.length_append, List.length_singleton] using passed

end Blocks

theorem headsFrom_none (i : Nat) (items : List Declaration) : headsFrom (fun _ => false) i items = [] := by
  induction items generalizing i with
  | nil => rfl
  | cons d more ih => exact ih _

/-- A source of declarations has just their blocks: those of its functions in their order, then those of its
classes. -/
theorem blocks_source (path language : String) {items : List Declaration} (formed : ∀ d ∈ items, d.WellFormed) :
    blocks ⟨path, source items, language⟩ =
      (items.filter (·.isFunction) ++ items.filter (!·.isFunction)).map (Declaration.block path language) := by
  have open_ : (trimEnd []).getLast? ≠ some '/' := by decide
  have stands : (File.mk path (source items) language).source = [] ++ source items := rfl
  rw [blocks, functionHead_finds.findAll_source formed, arrowHead_finds.findAll_source formed,
    typeHead_finds.findAll_source formed, classHead_finds.findAll_source formed, headsFrom_none,
    List.filterMap_nil, List.filterMap_nil, List.append_nil, List.append_nil, List.map_append]
  congr 1
  · exact functionBlock?_cuts.filterMap_headsFrom formed open_ stands
  · exact classBlock?_cuts.filterMap_headsFrom formed open_ stands

namespace Declaration

def badge : Declaration := .function "Badge".toList "on: (s) => A".toList "on('\x7d'); /* \x7b */ <b/>".toList

def exporting : Declaration := .concept "export".toList " run() \x7b\x7d // \x7d\n".toList

theorem wellFormed_badge : badge.WellFormed where
  named := by decide
  word := List.all_eq_true.1 (by decide)
  balanced := by decide
  unquoted := by
    have plain : badge.parameters.all (fun c => decide (c ∉ defaultQuotes)) = true := by decide
    intro c member
    exact of_decide_eq_true (List.all_eq_true.1 plain c member)
  unit := by decide
  single := by decide
  short := ⟨50, by decide, by decide⟩

theorem wellFormed_exporting : exporting.WellFormed where
  named := by decide
  word := List.all_eq_true.1 (by decide)
  balanced := .nil
  unquoted := by
    intro c member
    exact absurd member List.not_mem_nil
  unit := by decide
  single := by decide
  short := ⟨50, by decide, by decide⟩

end Declaration

theorem component_before_class :
    (∀ d ∈ [Declaration.exporting, .badge], d.WellFormed) ∧
      blocks ⟨"ui.tsx", source [.exporting, .badge], "typescript"⟩ =
        [Declaration.badge.block "ui.tsx" "typescript", Declaration.exporting.block "ui.tsx" "typescript"] ∧
      Declaration.badge.kind = .pattern := by
  have formed : ∀ d ∈ [Declaration.exporting, .badge], d.WellFormed := by
    simp only [List.forall_mem_cons]
    exact ⟨Declaration.wellFormed_exporting, Declaration.wellFormed_badge, by simp⟩
  exact ⟨formed, blocks_source "ui.tsx" "typescript" formed, by decide⟩

end CodeDeck.Extract.Curly
