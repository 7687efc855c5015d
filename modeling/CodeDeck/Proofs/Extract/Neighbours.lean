import CodeDeck.Proofs.Extract.Alias
import CodeDeck.Proofs.Extract.Ends

/-! Sources made of exported declarations: no block goes on into the next declaration, when the end of each can be
told from what follows. -/

namespace CodeDeck.Extract.Curly

open CodeDeck.Text CodeDeck.Pattern CodeDeck.Scan

/-! The passes. -/

def passes : List (Pattern × (File → Found → Option Block)) :=
  [(functionHead, functionBlock?), (arrowHead, arrowBlock?), (typeHead, typeBlock?), (classHead, classBlock?)]

def blocksAt (file : File) (offset : Nat) : List Block :=
  passes.flatMap fun pass => ((pass.1.findAll file.source).filter (·.start == offset)).filterMap (pass.2 file)

theorem blocks_eq (file : File) :
    blocks file = passes.flatMap fun pass => (pass.1.findAll file.source).filterMap (pass.2 file) := by
  simp [blocks, passes]

section Pass

variable {pass : Pattern × (File → Found → Option Block)}

theorem spares_of_mem_passes (listed : pass ∈ passes) : Spares pass.1 pass.2 := by
  simp only [passes, List.mem_cons, List.not_mem_nil, or_false] at listed
  rcases listed with rfl | rfl | rfl | rfl
  · exact functionHead_spares
  · exact arrowHead_spares
  · exact typeHead_spares
  · exact classHead_spares

theorem Exports.mono {keywords others : List String} {s : List Char} (exports : Exports keywords s)
    (listed : keywords ⊆ others) : Exports others s := by
  obtain ⟨behind, same, blank, w, member, start⟩ := exports
  exact ⟨behind, same, blank, w, listed member, start⟩

theorem exports_of_mem_passes (listed : pass ∈ passes) {s : List Char} (starts : pass.1.Starts s) :
    Exports Shape.headWords s := by
  simp only [passes, List.mem_cons, List.not_mem_nil, or_false] at listed
  rcases listed with rfl | rfl | rfl | rfl
  · exact (functionHead_exports starts).mono (by decide)
  · exact (arrowHead_exports starts).mono (by decide)
  · exact (typeHead_exports starts).mono (by decide)
  · exact (classHead_exports starts).mono (by decide)

end Pass

/-! Sources. -/

structure Item where
  gap : List Char
  shape : Shape
  deriving DecidableEq, Repr

def sourceOf : List Item → (tail : List Char) → List Char
  | [], tail => tail
  | item :: more, tail => item.gap ++ (item.shape.text ++ sourceOf more tail)

theorem sourceOf_append (above below : List Item) (tail : List Char) :
    sourceOf (above ++ below) tail = sourceOf above (sourceOf below tail) := by
  induction above with
  | nil => rfl
  | cons item more ih => rw [List.cons_append, sourceOf, ih, sourceOf]

theorem sourceOf_tail (items : List Item) (gap rest : List Char) :
    sourceOf items (gap ++ rest) = sourceOf items gap ++ rest := by
  induction items with
  | nil => rfl
  | cons item more ih => simp only [sourceOf, ih, List.append_assoc]

/-- A source without literals and comments made of declarations, of which all but the first start a line. -/
structure Formed (items : List Item) (tail : List Char) : Prop where
  bare : Bare (sourceOf items tail)
  formed : ∀ item ∈ items, item.shape.WellFormed
  blank : ∀ item ∈ items, ∀ c ∈ item.gap, isBlank c = true
  blankTail : ∀ c ∈ tail, isBlank c = true
  lines : ∀ item ∈ items.tail, item.gap.getLast? = some '\n'

def Told : List Item → (tail : List Char) → Prop
  | [], _ => True
  | [item], _ => item.shape.Legible
  | item :: next :: more, tail =>
    item.shape.Legible ∧ item.shape.Told next.gap (next.shape.text ++ sourceOf more tail) ∧ Told (next :: more) tail

instance Told.decidable : (items : List Item) → (tail : List Char) → Decidable (Told items tail)
  | [], _ => .isTrue trivial
  | [item], _ => inferInstanceAs (Decidable item.shape.Legible)
  | item :: next :: more, tail =>
    have := Told.decidable (next :: more) tail
    inferInstanceAs (Decidable (item.shape.Legible ∧
      item.shape.Told next.gap (next.shape.text ++ sourceOf more tail) ∧ Told (next :: more) tail))

theorem Told.of_append {above below : List Item} {tail : List Char} (told : Told (above ++ below) tail) :
    Told below tail := by
  induction above with
  | nil => exact told
  | cons item more ih =>
    apply ih
    cases rest : more ++ below with
    | nil => exact trivial
    | cons next others =>
      rw [List.cons_append, rest] at told
      exact told.2.2

theorem Told.legible {items : List Item} {tail : List Char} (told : Told items tail) :
    ∀ item ∈ items, item.shape.Legible := by
  intro item member
  obtain ⟨above, below, rfl⟩ := List.append_of_mem member
  have here : Told (item :: below) tail := told.of_append
  cases below with
  | nil => exact here
  | cons next more => exact here.1

section Place

variable {items above below : List Item} {item : Item} {tail before text : List Char}

theorem exists_stands (formed : Formed (above ++ item :: below) tail) (told : Told (above ++ item :: below) tail) :
    ∃ gap later, sourceOf below tail = gap ++ later ∧
      Stands (sourceOf (above ++ item :: below) tail) (sourceOf above item.gap) item.shape gap later := by
  have whole : sourceOf (above ++ item :: below) tail =
      sourceOf above item.gap ++ (item.shape.text ++ sourceOf below tail) := by
    rw [sourceOf_append, sourceOf, sourceOf_tail]
  have member : item ∈ above ++ item :: below := by simp
  have bare : Bare item.shape.text := by
    apply formed.bare.of_infix
    rw [whole]
    exact ⟨_, _, List.append_assoc ..⟩
  have here : Told (item :: below) tail := told.of_append
  cases below with
  | nil =>
    refine ⟨tail, [], (List.append_nil _).symm, ?_, bare, formed.formed item member, here, formed.blankTail, .inl rfl⟩
    rw [whole, List.append_nil]
    rfl
  | cons next more =>
    have second : next ∈ above ++ item :: next :: more := by simp
    have behind : next ∈ (above ++ item :: next :: more).tail := by cases above <;> simp
    refine ⟨next.gap, next.shape.text ++ sourceOf more tail, rfl, whole, bare, formed.formed item member, here.1,
      formed.blank next second, .inr ⟨?_, ?_, here.2.1⟩⟩
    · rintro empty
      have newline := formed.lines next behind
      rw [empty] at newline
      contradiction
    · exact (formed.formed next second).exported.trans (List.prefix_append ..)

/-- Behind a declaration comes a blank, and in front of the next ink stands none of the keywords of a head. -/
structure Continues (s : List Char) : Prop where
  blank : ∀ c ∈ s.head?, isBlank c = true
  next : ∀ c ∈ (trimStart s).head?, c = 'e'

theorem Continues.not_starts {s : List Char} (continues : Continues s) {w : String} (listed : w ∈ Shape.headWords) :
    ¬ w.toList <+: trimStart s := by
  have letters : ∀ w ∈ Shape.headWords, w.toList ≠ [] ∧ w.toList.head? ≠ some 'e' := by decide
  rintro ⟨rest, same⟩
  obtain ⟨c, more, letter⟩ := List.exists_cons_of_ne_nil (letters w listed).1
  have first : c = 'e' := continues.next c (by rw [← same, letter]; rfl)
  exact (letters w listed).2 (by rw [letter, first]; rfl)

theorem Continues.exports {s t : List Char} (continues : Continues s) (some : t ≠ [])
    (exports : Exports Shape.headWords (t ++ s)) : Exports Shape.headWords t := by
  obtain ⟨behind, same, blank, w, listed, start⟩ := exports
  have inked : ∀ w ∈ Shape.headWords, ∀ c ∈ w.toList, isBlank c = false := by decide
  have beyond (gap : List Char) (allGap : allBlank gap = true) (reached : behind = gap ++ s) : False := by
    rw [reached, trimStart, List.dropWhile_append_of_pos (List.all_eq_true.1 allGap)] at start
    exact continues.not_starts listed start
  rcases List.append_eq_append_iff.1 same with ⟨a, whole, reached⟩ | ⟨a, rfl, rfl⟩
  · cases a with
    | nil => exact (beyond [] rfl reached.symm).elim
    | cons c others =>
      have letter : isBlank c = true := continues.blank c (by rw [reached]; rfl)
      have apart : ∀ c ∈ "export".toList, isBlank c = false := by decide
      rw [apart c (by rw [whole]; simp)] at letter
      contradiction
  · cases gap : allBlank a with
    | true => exact (beyond a gap rfl).elim
    | false =>
      rw [trimStart_append gap] at start
      have first : a.head?.any isBlank = true := by
        cases a with
        | nil => contradiction
        | cons c others => exact blank
      refine ⟨a, rfl, first, w, listed, ?_⟩
      cases s with
      | nil => rwa [List.append_nil] at start
      | cons c rest =>
        refine (prefix_or_mem start).resolve_right fun member => ?_
        have letter := inked w listed c member
        rw [continues.blank c rfl] at letter
        contradiction

theorem continues_sourceOf (formed : ∀ item ∈ items, item.shape.WellFormed)
    (blank : ∀ item ∈ items, (∀ c ∈ item.gap, isBlank c = true) ∧ item.gap ≠ []) (last : ∀ c ∈ tail, isBlank c = true) :
    Continues (sourceOf items tail) := by
  cases items with
  | nil =>
    have none : trimStart tail = [] := List.dropWhile_eq_nil_iff.2 last
    exact ⟨fun c first => last c (List.mem_of_mem_head? first), fun c first => by rw [sourceOf, none] at first; contradiction⟩
  | cons item more =>
    obtain ⟨gap, some⟩ := blank item List.mem_cons_self
    constructor
    · intro c first
      rw [sourceOf, List.head?_append_of_ne_nil _ some] at first
      exact gap c (List.mem_of_mem_head? first)
    · intro c first
      obtain ⟨rest, same⟩ := (formed item List.mem_cons_self).exported
      rw [sourceOf, trimStart, List.dropWhile_append_of_pos gap, ← same] at first
      exact (Option.some.inj first).symm

/-- No head starts within a declaration: its words would end there, too. -/
theorem Shape.Alone.not_exports_within {d : Shape} (alone : d.Alone) {a b s : List Char}
    (split : d.text = a ++ b) (front : a ≠ []) (behind : b ≠ []) (continues : Continues s) :
    ¬ Exports Shape.headWords (b ++ s) := by
  intro exports
  have room := List.length_pos_iff.2 behind
  refine alone a.length ?_ (List.length_pos_iff.2 front) ?_
  · rw [split, List.length_append]
    omega
  · rw [split, List.drop_left]
    exact continues.exports behind exports

theorem exists_item (formed : ∀ item ∈ items, item.shape.WellFormed) (alone : ∀ item ∈ items, item.shape.Alone)
    (blank : ∀ item ∈ items, ∀ c ∈ item.gap, isBlank c = true) (apart : ∀ item ∈ items.tail, item.gap ≠ [])
    (last : ∀ c ∈ tail, isBlank c = true) (same : sourceOf items tail = before ++ text)
    (exports : Exports Shape.headWords text) :
    ∃ above item below, items = above ++ item :: below ∧ before = sourceOf above item.gap ∧
      text = item.shape.text ++ sourceOf below tail := by
  obtain ⟨rest, here⟩ := (exports_iff.1 exports).1
  have first : text.head? = some 'e' := by rw [← here]; rfl
  have outside {gap : List Char} (allGap : ∀ c ∈ gap, isBlank c = true) : 'e' ∉ gap := by
    intro member
    exact absurd (allGap 'e' member) (by decide)
  -- The first letter of an export word is in no gap, and no item has such a word inside: what is left at each item is
  -- its own start or a place behind it.
  induction items generalizing before with
  | nil =>
    have member : 'e' ∈ tail := by
      rw [show tail = before ++ text from same]
      exact List.mem_append_right before (List.mem_of_mem_head? first)
    exact absurd member (outside last)
  | cons item more ih =>
    obtain ⟨_, formedMore⟩ := List.forall_mem_cons.1 formed
    obtain ⟨ownAlone, aloneMore⟩ := List.forall_mem_cons.1 alone
    obtain ⟨ownBlank, blankMore⟩ := List.forall_mem_cons.1 blank
    have later {between : List Char} (reached : sourceOf more tail = between ++ text) :
        ∃ above found below, item :: more = above ++ found :: below ∧
          item.gap ++ (item.shape.text ++ between) = sourceOf above found.gap ∧
          text = found.shape.text ++ sourceOf below tail := by
      obtain ⟨above, found, below, rfl, rfl, stands⟩ :=
        ih formedMore aloneMore blankMore (fun next member => apart next (List.mem_of_mem_tail member)) reached
      exact ⟨item :: above, found, below, rfl, rfl, stands⟩
    rw [sourceOf] at same
    rcases List.append_eq_append_iff.1 same with ⟨a, rfl, inner⟩ | ⟨a, gap, reached⟩
    · rcases List.append_eq_append_iff.1 inner with ⟨between, rfl, behind⟩ | ⟨b, split, reached⟩
      · exact later behind
      · match a, b with
        | [], b => exact ⟨[], item, more, rfl, List.append_nil _, by rw [reached, split]; rfl⟩
        | a, [] =>
          obtain rfl : item.shape.text = a := split.trans (List.append_nil a)
          have beyond : sourceOf more tail = [] ++ text := reached.symm
          simpa using later beyond
        | c :: a, d :: b =>
          have continues := continues_sourceOf formedMore (fun next member => ⟨blankMore next member, apart next member⟩) last
          have within := ownAlone.not_exports_within split (List.cons_ne_nil c a) (List.cons_ne_nil d b) continues
          exact absurd (reached ▸ exports) within
    · cases a with
      | nil => exact ⟨[], item, more, rfl, (gap.trans (List.append_nil before)).symm, reached⟩
      | cons c others =>
        rw [reached] at first
        obtain rfl : c = 'e' := Option.some.inj first
        refine absurd ?_ (outside ownBlank)
        rw [gap]
        simp

theorem exists_standing {pass : Pattern × (File → Found → Option Block)} (formed : Formed items tail)
    (told : Told items tail) (listed : pass ∈ passes) {m : Found}
    (member : m ∈ pass.1.findAll (sourceOf items tail)) :
    ∃ above item below gap later, ∃ previous, items = above ++ item :: below ∧
      Stands (sourceOf items tail) (sourceOf above item.gap) item.shape gap later ∧
      matchAt? pass.1 (sourceOf items tail).length
        ⟨(sourceOf above item.gap).length, previous, item.shape.text ++ (gap ++ later), []⟩ = some m := by
  obtain ⟨before, text, same, _, matched⟩ := exists_place_of_mem_findAll member
  obtain ⟨taken, rest, ahead, takes, _⟩ := exists_taken_of_matchAt? matched
  have exports := exports_of_mem_passes listed ⟨taken, ⟨rest, ahead.symm⟩, takes⟩
  have apart : ∀ item ∈ items.tail, item.gap ≠ [] := by
    rintro item behind empty
    have newline := formed.lines item behind
    rw [empty] at newline
    contradiction
  have alone : ∀ item ∈ items, item.shape.Alone := fun item member => (told.legible item member).1
  obtain ⟨above, item, below, rfl, rfl, rfl⟩ :=
    exists_item formed.formed alone formed.blank apart formed.blankTail same exports
  obtain ⟨gap, later, split, stands⟩ := exists_stands formed told
  exact ⟨above, item, below, gap, later, _, rfl, stands, split ▸ matched⟩

/-- A function without body, in whose result each object type is led to. -/
def Shape.Signature : Shape → Prop
  | function _ _ _ result ending => (∀ inside, ending ≠ .body inside) ∧ Led result
  | _ => False

theorem passes_eq_none {file : File} {gap later : List Char} {d : Shape}
    (stands : Stands file.source before d gap later) (signature : d.Signature)
    {pass : Pattern × (File → Found → Option Block)} (listed : pass ∈ passes) {limit : Nat} {previous : Option Char}
    {m : Found} (matched : matchAt? pass.1 limit ⟨before.length, previous, d.text ++ (gap ++ later), []⟩ = some m) :
    pass.2 file m = none := by
  cases d with
  | function front types parameters result ending =>
    obtain ⟨taken, rest, ahead, takes, _⟩ := exists_taken_of_matchAt? matched
    obtain ⟨key, found, keyed⟩ := stands.keyword
    have function : "function".toList <+: key := keyed
    simp only [passes, List.mem_cons, List.not_mem_nil, or_false] at listed
    rcases listed with rfl | rfl | rfl | rfl
    · exact functionBlock?_eq_none stands signature.1 signature.2 matched
    · have own := arrowHead_keyword ⟨taken, ⟨rest, ahead.symm⟩, takes⟩
      obtain rfl := Option.some.inj (found.symm.trans own)
      exact absurd function (by decide)
    · obtain ⟨own, which⟩ := typeHead_keyword matched
      obtain rfl := Option.some.inj (found.symm.trans own)
      rcases which with same | same
      · exact absurd (same ▸ function) (by decide)
      · exact absurd (same ▸ function) (by decide)
    · have own := classHead_keyword ⟨taken, ⟨rest, ahead.symm⟩, takes⟩
      obtain rfl := Option.some.inj (found.symm.trans own)
      exact absurd function (by decide)
  | arrow => exact signature.elim
  | typeAlias => exact signature.elim
  | interface => exact signature.elim
  | concept => exact signature.elim

theorem blocksAt_eq_nil {file : File} (formed : Formed (above ++ item :: below) tail)
    (told : Told (above ++ item :: below) tail) (same : file.source = sourceOf (above ++ item :: below) tail)
    (signature : item.shape.Signature) : blocksAt file (sourceOf above item.gap).length = [] := by
  obtain ⟨gap, later, split, stands⟩ := exists_stands formed told
  rw [← same] at stands
  refine List.flatMap_eq_nil_iff.2 fun pass listed => List.filterMap_eq_nil_iff.2 fun m member => ?_
  obtain ⟨member, start⟩ := List.mem_filter.1 member
  obtain ⟨before, text, place, _, matched⟩ := exists_place_of_mem_findAll member
  obtain ⟨_, _, _, _, offset, _⟩ := exists_taken_of_matchAt? matched
  have length : before.length = (sourceOf above item.gap).length := by
    rw [← show m.start = before.length from offset]
    exact beq_iff_eq.1 start
  obtain ⟨rfl, rfl⟩ := List.append_inj (place.symm.trans stands.same) length
  exact passes_eq_none stands signature listed matched

/-- The code goes on into a declaration behind its own. -/
def Swallows (b : Block) : Prop := ∃ line ∈ (lines b.code.toList).tail, "export ".toList <+: line

instance : DecidablePred Swallows := fun b =>
  inferInstanceAs (Decidable (∃ line ∈ (lines b.code.toList).tail, "export ".toList <+: line))

theorem not_swallows {b : Block} {d : Shape} (formed : d.WellFormed) (part : b.code.toList <+: d.text) :
    ¬ Swallows b := by
  rintro ⟨line, member, start, rfl⟩
  apply formed.single
  have inside := (newline_infix_of_mem_lines member).trans part.isInfix
  exact List.IsInfix.trans ⟨[], start, by simp⟩ inside

end Place

/-! Sources of each kind. -/

theorem formed_iff (items : List Item) (tail : List Char) :
    Formed items tail ↔ (Bare (sourceOf items tail) ∧ (∀ item ∈ items, item.shape.Standalone) ∧
      (∀ item ∈ items, ∀ c ∈ item.gap, isBlank c = true) ∧ (∀ c ∈ tail, isBlank c = true) ∧
      ∀ item ∈ items.tail, item.gap.getLast? = some '\n') ∧ ∀ item ∈ items, item.shape.Complete := by
  constructor
  · intro formed
    exact ⟨⟨formed.bare, fun item member => (formed.formed item member).toStandalone, formed.blank, formed.blankTail,
      formed.lines⟩, fun item member => (formed.formed item member).complete⟩
  · rintro ⟨⟨bare, standalone, blank, blankTail, lines⟩, complete⟩
    exact ⟨bare, fun item member => ⟨standalone item member, complete item member⟩, blank, blankTail, lines⟩

def fileOf (items : List Item) : File := ⟨"f", sourceOf items "\n".toList, "typescript"⟩

def Item.below (shape : Shape) : Item := ⟨"\n".toList, shape⟩

def plainType (s : String) : List TypeToken := s.toList.map .plain

theorem wellFormed_plainType {s : String} (free : ∀ c ∈ s.toList, isPlain c = true ∧ c ≠ ';') :
    ∀ t ∈ plainType s, t.WellFormed := TypeToken.wellFormed_plain free

theorem wellFormed_sized : (TypeToken.group .curly " size: number ".toList).WellFormed :=
  show Grouped (" size: number ".toList ++ []) from .run (by decide) .nil

def kinds : List Item :=
  [⟨[], .function "export function area".toList [] "b: any".toList (plainType ": number") .semicolon⟩,
   .below (.function "export function area".toList "<B>".toList "b: B".toList
     (plainType ": " ++ .group .curly " size: number ".toList :: plainType " ") (.body "\n  return b\n".toList)),
   .below (.arrow "export const twice ".toList " (x) ".toList " x + x".toList),
   ⟨"\n\n".toList, .typeAlias "export type Pair = \x7b a: any; b: any \x7d".toList⟩,
   .below (.interface "export interface Shape \x7b\n  size: number\n\x7d".toList),
   .below (.concept
     (plainType "export class Box" ++ .group .angle "T = any".toList :: plainType " ")
     "\n  size = 1\n".toList),
   .below (.typeAlias "export type Name = any;".toList),
   .below (.arrow "export const same ".toList " (x) ".toList " \x7b return x \x7d".toList)]

theorem complete_kinds : ∀ item ∈ kinds, item.shape.Complete := by
  have named : Grouped ("T ".toList ++ '=' :: (" any".toList ++ [])) :=
    .run (by decide) (.default ⟨'a', by decide, by decide⟩ (.run (by decide) .nil))
  have sized : ∀ t ∈ plainType ": " ++ .group .curly " size: number ".toList :: plainType " ", t.WellFormed :=
    List.forall_mem_append.2 ⟨wellFormed_plainType (by decide),
      List.forall_mem_cons.2 ⟨wellFormed_sized, wellFormed_plainType (by decide)⟩⟩
  have heading : ∀ t ∈ plainType "export class Box" ++ .group .angle "T = any".toList ::
      plainType " ", t.WellFormed :=
    List.forall_mem_append.2 ⟨wellFormed_plainType (by decide),
      List.forall_mem_cons.2 ⟨named, wellFormed_plainType (by decide)⟩⟩
  have settled : Settled (plainType ": " ++ .group .curly " size: number ".toList :: plainType " ") := by decide
  simp only [kinds, Item.below, List.forall_mem_cons]
  refine ⟨?_, ?_, ?_, ?_, ?_, ?_, ?_, ?_, by nofun⟩
  · exact .function (by decide) (.inl rfl) (by decide) (wellFormed_plainType (by decide)) (by nofun)
  · exact .function (by decide) (.inr ⟨['B'], [], rfl, by decide⟩) (by decide) sized fun _ _ => settled
  · exact .arrow (by decide) (by decide) (by decide)
  · exact .typeAlias (by decide)
  · exact .interface (by decide)
  · exact .concept heading (by decide)
  · exact .typeAlias (by decide)
  · exact .arrow (by decide) (by decide) (by decide)

def Overruns (items : List Item) : Prop := Formed items "\n".toList ∧ ∃ b ∈ blocks (fileOf items), Swallows b

theorem settled_blank : Settled (plainType " ") := by decide

theorem wellFormed_blank : ∀ t ∈ plainType " ", t.WellFormed := wellFormed_plainType (by decide)

def plainBinding : Shape := .arrow "export const same ".toList " (x) ".toList " x;".toList

theorem complete_plainBinding : plainBinding.Complete := .arrow (by decide) (by decide) (by decide)

def overloads : List Item :=
  [⟨[], .function "export function parse".toList [] "s: any".toList (plainType ": any") .newline⟩,
   .below (.function "export function parse".toList [] "s: any".toList (plainType " ") (.body " return s ".toList))]

theorem overloads_overrun : Overruns overloads := by
  have complete : ∀ item ∈ overloads, item.shape.Complete := by
    simp only [overloads, Item.below, List.forall_mem_cons]
    refine ⟨?_, ?_, by nofun⟩
    · exact .function (by decide) (.inl rfl) (by decide) (wellFormed_plainType (by decide)) (by nofun)
    · exact .function (by decide) (.inl rfl) (by decide) wellFormed_blank fun _ _ => settled_blank
  exact ⟨(formed_iff ..).2 ⟨by decide +kernel, complete⟩, by decide +kernel⟩

/-- A semicolon without an empty line. -/
def bindings : List Item := [⟨[], .arrow "export const twice ".toList " (x) ".toList " x + x;".toList⟩, .below plainBinding]

theorem bindings_overrun : Overruns bindings := by
  have complete : ∀ item ∈ bindings, item.shape.Complete := by
    simp only [bindings, Item.below, List.forall_mem_cons]
    exact ⟨.arrow (by decide) (by decide) (by decide), complete_plainBinding, by nofun⟩
  exact ⟨(formed_iff ..).2 ⟨by decide +kernel, complete⟩, by decide +kernel⟩

def callbacks : List Item :=
  [⟨[], .arrow "export const call ".toList " (f: (x) => y) ".toList " \x7b f(1) \x7d".toList⟩, .below plainBinding]

theorem callbacks_overrun : Overruns callbacks := by
  have complete : ∀ item ∈ callbacks, item.shape.Complete := by
    simp only [callbacks, Item.below, List.forall_mem_cons]
    exact ⟨.arrow (by decide) (by decide) (by decide), complete_plainBinding, by nofun⟩
  exact ⟨(formed_iff ..).2 ⟨by decide +kernel, complete⟩, by decide +kernel⟩

def aliases : List Item :=
  [⟨[], .typeAlias "export type Name = any".toList⟩,
   ⟨"\n\n".toList, .typeAlias "export type Box = \x7b size: any \x7d".toList⟩]

theorem aliases_overrun : Overruns aliases := by
  have complete : ∀ item ∈ aliases, item.shape.Complete := by
    simp only [aliases, List.forall_mem_cons]
    exact ⟨.typeAlias (by decide), .typeAlias (by decide), by nofun⟩
  exact ⟨(formed_iff ..).2 ⟨by decide +kernel, complete⟩, by decide +kernel⟩

/-- A parenthesis right behind an arrow in the type parameters. -/
def generics : List Item :=
  [⟨[], .function "export function call".toList "<F extends () => (any)>".toList "f: F".toList (plainType " ")
     (.body " return f() ".toList)⟩,
   .below (.function "export function none".toList [] "a = \x7b\x7d".toList (plainType " ")
     (.body " return a ".toList))]

theorem generics_overrun : Overruns generics := by
  have types : "<F extends () => (any)>".toList = '<' :: ("F extends () => (any)".toList ++ '>' :: []) := rfl
  have complete : ∀ item ∈ generics, item.shape.Complete := by
    simp only [generics, Item.below, List.forall_mem_cons]
    refine ⟨?_, ?_, by nofun⟩
    · exact .function (by decide) (.inr ⟨_, _, types, by decide⟩) (by decide) wellFormed_blank fun _ _ => settled_blank
    · exact .function (by decide) (.inl rfl) (by decide) wellFormed_blank fun _ _ => settled_blank
  exact ⟨(formed_iff ..).2 ⟨by decide +kernel, complete⟩, by decide +kernel⟩

def headlines : List Item :=
  [⟨[], .function "export function Help".toList [] [] (plainType " ") (.body "\n  return <p>export type info</p>\n".toList)⟩,
   .below (.arrow "export const same ".toList " (x) ".toList " \x7b x \x7d".toList)]

theorem headlines_overrun : Overruns headlines := by
  have complete : ∀ item ∈ headlines, item.shape.Complete := by
    simp only [headlines, Item.below, List.forall_mem_cons]
    refine ⟨?_, ?_, by nofun⟩
    · exact .function (by decide) (.inl rfl) (by decide) wellFormed_blank fun _ _ => settled_blank
    · exact .arrow (by decide) (by decide) (by decide)
  exact ⟨(formed_iff ..).2 ⟨by decide +kernel, complete⟩, by decide +kernel⟩

/-- A function without body, with an object type to which no token leads. -/
def guards : List Item :=
  [⟨[], .function "export function isBox".toList [] "a: any".toList
     (plainType ": a is " ++ [.group .curly " size: number ".toList]) .semicolon⟩]

theorem guards_make_block : Formed guards "\n".toList ∧ (blocksAt (fileOf guards) 0).length = 1 := by
  have result : ∀ t ∈ plainType ": a is " ++ [.group .curly " size: number ".toList], t.WellFormed :=
    List.forall_mem_append.2 ⟨wellFormed_plainType (by decide), List.forall_mem_singleton.2 wellFormed_sized⟩
  have complete : ∀ item ∈ guards, item.shape.Complete := by
    simp only [guards, List.forall_mem_cons]
    exact ⟨.function (by decide) (.inl rfl) (by decide) result (by nofun), by nofun⟩
  exact ⟨(formed_iff ..).2 ⟨by decide +kernel, complete⟩, by decide +kernel⟩

end CodeDeck.Extract.Curly
