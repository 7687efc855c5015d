import CodeDeck.Language
import CodeDeck.Proofs.Fetch.Selection
import CodeDeck.Proofs.Text.Search

/-! Which files are read, and in which languages. The selection of files looks for a point in the whole path and keeps
capitals; the language is told by the base name, in lower case. The two agree on all paths but those that are an
extension themselves and those with capitals in their extension. -/

namespace CodeDeck

open CodeDeck.Text

theorem Path.extension?_eq_some_iff {path extension : List Char} :
    extension? path = some extension ↔
      ∃ front, path = front ++ '.' :: extension ∧ '.' ∉ extension ∧ '/' ∉ extension := by
  constructor
  · intro found
    simp only [extension?, List.contains_iff_mem, Option.ite_none_right_eq_some, Option.some.injEq] at found
    obtain ⟨inside, rfl⟩ := found
    obtain ⟨lead, cut⟩ := exists_append_afterLast inside
    obtain ⟨directory, whole⟩ := afterLast_isSuffix '/' path
    refine ⟨directory ++ lead, ?_, notMem_afterLast '.' _, ?_⟩
    · rw [List.append_assoc, ← cut]
      exact whole.symm
    · intro slash
      exact notMem_afterLast '/' path ((afterLast_isSuffix '.' _).subset slash)
  · rintro ⟨front, rfl, noPoint, noSlash⟩
    have name : baseName (front ++ '.' :: extension) = afterLast '/' front ++ '.' :: extension :=
      afterLast_append (by simp [noSlash]) front
    simp [extension?, name, afterLast_append_cons noPoint]

namespace Fetch

theorem clear_of_mem_codeExtensions :
    ∀ extension ∈ codeExtensions, '.' ∉ extension.toList ∧ '/' ∉ extension.toList := by
  decide +kernel

theorem lower_of_mem_codeExtensions : ∀ extension ∈ codeExtensions, lower extension.toList = extension.toList := by
  decide +kernel

theorem isSome_ofExtension?_iff (extension : String) :
    (Language.ofExtension? extension).isSome = true ↔ extension ∈ codeExtensions := by
  unfold Language.ofExtension?
  split <;> simp_all [codeExtensions]

theorem ofExtension?_ne_text (extension : String) : Language.ofExtension? extension ≠ some .text := by
  unfold Language.ofExtension?
  split <;> simp

theorem ofPath_ne_text_iff {path : String} :
    Language.ofPath path ≠ .text ↔
      ∃ extension, Path.extension? path.toList = some extension ∧
        String.ofList (lower extension) ∈ codeExtensions := by
  unfold Language.ofPath
  cases Path.extension? path.toList with
  | none => simp
  | some extension =>
    have other := ofExtension?_ne_text (String.ofList (lower extension))
    simp only [Option.some.injEq, exists_eq_left', ← isSome_ofExtension?_iff]
    cases known : Language.ofExtension? (String.ofList (lower extension)) with
    | none => simp
    | some language =>
      rw [known] at other
      simpa using other

theorem hasCodeExtension_iff {path : String} :
    hasCodeExtension path.toList = true ↔
      path ∈ codeExtensions ∨
        ∃ extension, Path.extension? path.toList = some extension ∧ String.ofList extension ∈ codeExtensions := by
  rw [hasCodeExtension, List.contains_iff_mem]
  by_cases inside : '.' ∈ path.toList
  · obtain ⟨front, cut⟩ := exists_append_afterLast inside
    have bare : path ∉ codeExtensions := fun own => (clear_of_mem_codeExtensions path own).1 inside
    simp only [bare, false_or]
    constructor
    · intro listed
      have clear := clear_of_mem_codeExtensions _ listed
      rw [String.toList_ofList] at clear
      exact ⟨_, Path.extension?_eq_some_iff.2 ⟨front, cut, clear⟩, listed⟩
    · rintro ⟨extension, found, listed⟩
      obtain ⟨lead, whole, noPoint, -⟩ := Path.extension?_eq_some_iff.1 found
      rwa [whole, afterLast_append_cons noPoint]
  · have none (extension : List Char) : Path.extension? path.toList ≠ some extension := by
      intro found
      obtain ⟨lead, whole, -⟩ := Path.extension?_eq_some_iff.1 found
      exact inside (by simp [whole])
    simp [afterLast_of_notMem inside, none]

/-- A path about which the selection and the language differ. -/
inductive IsMisrouted (path : String) : Prop
  /-- The file is kept, but nothing in its name tells a language. -/
  | bare (own : path ∈ codeExtensions)
  /-- The file is left out, but its language is known. -/
  | capital {extension : List Char} (found : Path.extension? path.toList = some extension)
      (unlisted : String.ofList extension ∉ codeExtensions)
      (known : String.ofList (lower extension) ∈ codeExtensions)

theorem hasCodeExtension_iff_iff {path : String} :
    (hasCodeExtension path.toList = true ↔ Language.ofPath path ≠ .text) ↔ ¬ IsMisrouted path := by
  rw [hasCodeExtension_iff, ofPath_ne_text_iff]
  constructor
  · rintro agree (own | ⟨found, unlisted, known⟩)
    · obtain ⟨extension, found, -⟩ := agree.1 (.inl own)
      obtain ⟨front, whole, -⟩ := Path.extension?_eq_some_iff.1 found
      exact (clear_of_mem_codeExtensions path own).1 (by simp [whole])
    · rcases agree.2 ⟨_, found, known⟩ with own | ⟨other, found', listed⟩
      · obtain ⟨front, whole, -⟩ := Path.extension?_eq_some_iff.1 found
        exact (clear_of_mem_codeExtensions path own).1 (by simp [whole])
      · rw [found] at found'
        exact unlisted (Option.some.inj found' ▸ listed)
  · intro routed
    constructor
    · rintro (own | ⟨extension, found, listed⟩)
      · exact absurd (.bare own) routed
      · have small := lower_of_mem_codeExtensions _ listed
        rw [String.toList_ofList] at small
        exact ⟨extension, found, small.symm ▸ listed⟩
    · rintro ⟨extension, found, known⟩
      refine .inr ⟨extension, found, ?_⟩
      by_contra unlisted
      exact routed (.capital found unlisted known)

end Fetch

namespace TreeEntry

def IsTyped (e : TreeEntry) : Prop := e.path.text?.isSome = true ∧ e.size.isSize = true

instance (e : TreeEntry) : Decidable e.IsTyped := inferInstanceAs (Decidable (_ ∧ _))

/-- A file that only its extension can keep from being read. -/
structure IsCandidate (limit : Int) (e : TreeEntry) (path : String) : Prop where
  isBlob : e.isBlob = true
  named : e.path = .str path
  sized : e.size = .null ∨ ∃ size, e.size = .int size ∧ size ≤ limit
  unmarked : ∀ marker ∈ Fetch.skipMarkers, ¬ marker.toList <:+: path.toList

end TreeEntry

namespace Fetch

variable {limit : Int} {e : TreeEntry} {tree : List TreeEntry}

theorem exists_keeps (typed : e.IsTyped) : ∃ kept, keeps (.int limit) e = .ok kept := by
  obtain ⟨path, isBlob, size⟩ := e
  obtain ⟨named, sized⟩ := typed
  obtain ⟨text, named⟩ := Option.isSome_iff_exists.1 named
  obtain rfl : path = .str text := Json.eq_str_of_text? named
  exact ⟨_, keeps_eq text isBlob rfl sized⟩

theorem keeps_of_isCandidate {path : String} (candidate : e.IsCandidate limit path) :
    keeps (.int limit) e = .ok (hasCodeExtension path.toList) := by
  obtain ⟨named, isBlob, size⟩ := e
  obtain ⟨rfl, rfl, sized, unmarked⟩ := candidate
  have clear : hasSkipMarker path.toList = false := by
    rw [hasSkipMarker, List.any_eq_false]
    intro marker member
    rw [contains_iff_isInfix]
    exact unmarked marker member
  have small : size.isSize = true ∧ isLarge limit size = false := by
    rcases sized with rfl | ⟨n, rfl, within⟩
    · exact ⟨rfl, rfl⟩
    · refine ⟨rfl, ?_⟩
      rw [isLarge, Json.whole?, Option.any_some, decide_eq_false (Int.not_lt.2 within), Bool.and_false]
  rw [keeps_eq path true rfl small.1, clear, small.2, Bool.true_and, Bool.not_false, Bool.and_true, Bool.and_true]

theorem select_eq_filter {limit : Json} {chosen : TreeEntry → Bool} (judged : ∀ e ∈ tree, keeps limit e = .ok (chosen e)) :
    select limit tree = .ok ((tree.filter chosen).map (·.path)) := by
  induction tree with
  | nil => rfl
  | cons e rest ih =>
    obtain ⟨own, others⟩ := List.forall_mem_cons.1 judged
    simp only [select, own, ih others, bind, Except.bind, List.filter_cons]
    cases chosen e <;> rfl

/-- Files that only their extensions can keep from being read are read exactly when a language is known for them, exactly
when their paths are not misrouted. -/
theorem select_routed_iff (typed : ∀ e ∈ tree, e.IsTyped) :
    ∃ chosen, select (.int limit) tree = .ok ((tree.filter chosen).map (·.path)) ∧
      ∀ e ∈ tree, ∀ path, e.IsCandidate limit path →
        ((chosen e = true ↔ Language.ofPath path ≠ .text) ↔ ¬ IsMisrouted path) := by
  have judged (e : TreeEntry) : ∃ kept, e ∈ tree → keeps (.int limit) e = .ok kept := by
    by_cases member : e ∈ tree
    · obtain ⟨kept, own⟩ := exists_keeps (typed e member)
      exact ⟨kept, fun _ => own⟩
    · exact ⟨false, fun inside => absurd inside member⟩
  choose chosen judged using judged
  refine ⟨chosen, select_eq_filter judged, ?_⟩
  intro e member path candidate
  obtain own : chosen e = hasCodeExtension path.toList :=
    Except.ok.inj ((judged e member).symm.trans (keeps_of_isCandidate candidate))
  rw [own]
  exact hasCodeExtension_iff_iff

def script : TreeEntry := ⟨.str "lib/a.mjs", true, .int 10⟩

def readme : TreeEntry := ⟨.str "dist/README", true, .null⟩

theorem script_routed :
    (∀ e ∈ [script, readme], e.IsTyped) ∧ script.IsCandidate 50000 "lib/a.mjs" ∧ ¬ IsMisrouted "lib/a.mjs" ∧
      Language.ofPath "lib/a.mjs" = .javascript ∧
      ∃ chosen, select (.int 50000) [script, readme] = .ok (([script, readme].filter chosen).map (·.path)) ∧
        chosen script = true := by
  have typed : ∀ e ∈ [script, readme], e.IsTyped := by decide
  have candidate : script.IsCandidate 50000 "lib/a.mjs" :=
    ⟨rfl, rfl, .inr ⟨10, rfl, by decide⟩, by decide +kernel⟩
  have language : Language.ofPath "lib/a.mjs" = .javascript := by decide +kernel
  have routed : ¬ IsMisrouted "lib/a.mjs" := by
    rw [← hasCodeExtension_iff_iff, language]
    decide +kernel
  obtain ⟨chosen, selected, agree⟩ :
      ∃ chosen, select (.int 50000) [script, readme] = .ok (([script, readme].filter chosen).map (·.path)) ∧
        ∀ e ∈ [script, readme], ∀ path, e.IsCandidate 50000 path →
          ((chosen e = true ↔ Language.ofPath path ≠ .text) ↔ ¬ IsMisrouted path) := select_routed_iff typed
  refine ⟨typed, candidate, routed, language, chosen, selected, ?_⟩
  exact ((agree script List.mem_cons_self _ candidate).2 routed).2 (language ▸ by decide)

def shouted : TreeEntry := ⟨.str "lib/index.JS", true, .null⟩

def nameless : TreeEntry := ⟨.str "go", true, .null⟩

theorem misrouted_files :
    (shouted.IsCandidate 50000 "lib/index.JS" ∧ keeps (.int 50000) shouted = .ok false ∧
      Language.ofPath "lib/index.JS" = .javascript) ∧
    (nameless.IsCandidate 50000 "go" ∧ keeps (.int 50000) nameless = .ok true ∧ Language.ofPath "go" = .text) := by
  refine ⟨⟨⟨rfl, rfl, .inl rfl, by decide +kernel⟩, by decide +kernel, by decide +kernel⟩,
    ⟨⟨rfl, rfl, .inl rfl, by decide +kernel⟩, by rfl, by decide +kernel⟩⟩

end Fetch

end CodeDeck
