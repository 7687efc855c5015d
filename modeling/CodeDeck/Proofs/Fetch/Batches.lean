import CodeDeck.Proofs.Fetch.Selection
import CodeDeck.Proofs.Generate

/-! Files in batches, whatever the client and the replies. The batches, one behind the other, are the paths in
their order. The first fault among the files ends the reading behind the batch that it stands in. -/

namespace CodeDeck.Fetch

open CodeDeck.Text CodeDeck.Http

def slices {α : Type} (size : Nat) (items : List α) : List (List α) :=
  (List.range ((items.length + (size - 1)) / size)).map fun i => (items.drop (i * size)).take size

section Slices

variable {α : Type} {size : Nat}

theorem flatten_slices (size : Nat) (items : List α) (n : Nat) :
    ((List.range n).map fun i => (items.drop (i * size)).take size).flatten = items.take (n * size) := by
  induction n with
  | zero => simp
  | succ n ih =>
    rw [List.range_succ, List.map_append, List.flatten_append, ih, Nat.succ_mul, List.take_add]
    simp

theorem slices_flatten (positive : 0 < size) (items : List α) : (slices size items).flatten = items := by
  have enough := Nat.lt_mul_div_succ (items.length + (size - 1)) positive
  rw [Nat.mul_add, Nat.mul_one, Nat.mul_comm] at enough
  rw [slices, flatten_slices]
  exact List.take_of_length_le (by omega)

theorem take_slices_flatten {items : List α} {k : Nat} (inside : k ≤ (slices size items).length) :
    ((slices size items).take k).flatten = items.take (k * size) := by
  rw [slices, List.length_map, List.length_range] at inside
  rw [slices, ← List.map_take, List.take_range, Nat.min_eq_left inside, flatten_slices]

theorem getElem?_slices {items : List α} {k : Nat} (inside : k < (slices size items).length) :
    (slices size items)[k]? = some ((items.drop (k * size)).take size) := by
  rw [slices, List.length_map, List.length_range] at inside
  rw [slices, List.getElem?_map, List.getElem?_range inside, Option.map_some]

theorem div_lt_length_slices (positive : 0 < size) {items : List α} {i : Nat} (inside : i < items.length) :
    i / size < (slices size items).length := by
  have next : i + size ≤ items.length + (size - 1) := by omega
  have piece := Nat.div_le_div_right (c := size) next
  rw [Nat.add_div_right i positive] at piece
  rw [slices, List.length_map, List.length_range]
  exact piece

theorem batches_eq (size : Nat) (paths : List String) :
    batches size (paths.map .str) = (slices size paths).map (·.map .str) := by
  simp only [batches, slices, List.length_map, List.map_map, Function.comp_def, List.map_drop, List.map_take]

end Slices

section Reading

variable (c : Client) (routes : Routes) (name : RepoName)

def request? (path : String) : Option Request := asked? c (fileReference name path) none

/-- What becomes of a file in its batch. -/
def fate (path : String) : Outcome :=
  match fileCall c name (.str path) with
  | .ok call => outcome ((routes.reply call).read call)
  | .error fault => .error fault

def fault? (path : String) : Option CodeDeck.Fault :=
  match fate c routes name path with
  | .ok _ => none
  | .error fault => some fault

def read? (path : String) : Option SourceFile :=
  match fate c routes name path with
  | .ok (.ok content) => some ⟨path, content⟩
  | _ => none

def reading (paths : List String) : Except CodeDeck.Fault (List SourceFile) :=
  match paths.findSome? (fault? c routes name) with
  | some fault => .error fault
  | none => .ok (paths.filterMap (read? c routes name))

/-- The paths that are asked for. Behind a batch with a fault there are none. -/
def reached : List (List String) → List String
  | [] => []
  | part :: rest =>
    match part.findSome? (fault? c routes name) with
    | some _ => part
    | none => part ++ reached rest

variable {c routes name}

theorem reading_append (front back : List String) :
    reading c routes name (front ++ back) =
      reading c routes name front >>= fun files => (reading c routes name back).map (files ++ ·) := by
  unfold reading
  rw [List.findSome?_append, List.filterMap_append]
  cases front.findSome? (fault? c routes name) with
  | some fault => rfl
  | none =>
    cases back.findSome? (fault? c routes name) with
    | some fault => rfl
    | none => rfl

variable (c routes name)

theorem does_warnOf (path : Json) (o : Outcome) : Work.Does (warnOf path o) [] (.ok ()) := by
  unfold warnOf
  split
  · split
    · exact Work.does_warn _
    · exact Work.does_pure ()
  · exact Work.does_pure ()

theorem does_file (path : String) :
    Work.Does (file c routes name (.str path)) (request? c name path).toList
      (.ok (fate c routes name path)) := by
  have same : fileCall c name (.str path) = c.call (fileReference name path) none := rfl
  unfold file request? asked? fate
  rw [same]
  cases c.call (fileReference name path) none with
  | error fault => exact Work.does_pure _
  | ok call => exact (does_ask call).bind ((does_warnOf _ _).next (Work.does_pure _))

theorem does_batch (paths : List String) :
    Work.Does (batch c routes name (paths.map .str)) (paths.filterMap (request? c name))
      (.ok (paths.map (fate c routes name))) := by
  rw [List.filterMap_eq_flatMap_toList]
  induction paths with
  | nil => exact Work.does_pure _
  | cons path rest ih =>
    rw [List.flatMap_cons]
    exact (does_file c routes name path).bind (ih.map (fate c routes name path :: ·))

theorem settled_eq (paths : List String) :
    settled ((paths.map Json.str).zip (paths.map (fate c routes name))) = reading c routes name paths := by
  induction paths with
  | nil => rfl
  | cons path rest ih =>
    simp only [List.map_cons, List.zip_cons_cons]
    cases outcome : fate c routes name path with
    | error fault =>
      have stops : fault? c routes name path = some fault := by rw [fault?, outcome]
      simp only [settled, reading, List.findSome?_cons, stops]
    | ok content =>
      have goes : fault? c routes name path = none := by rw [fault?, outcome]
      simp only [settled, reading, List.findSome?_cons, goes, ih]
      cases content with
      | error skip =>
        have left : read? c routes name path = none := by rw [read?, outcome]
        rw [List.filterMap_cons_none left]
        cases rest.findSome? (fault? c routes name) <;> rfl
      | ok text =>
        have kept : read? c routes name path = some ⟨path, text⟩ := by rw [read?, outcome]
        rw [List.filterMap_cons_some kept]
        cases rest.findSome? (fault? c routes name) <;> rfl

theorem does_runBatches (parts : List (List String)) :
    Work.Does (runBatches c routes name (parts.map fun part => part.map .str))
      ((reached c routes name parts).filterMap (request? c name))
      (reading c routes name parts.flatten) := by
  induction parts with
  | nil => exact Work.does_pure _
  | cons part rest ih =>
    have asked := does_batch c routes name part
    have settles := settled_eq c routes name part
    rw [List.flatten_cons, reading_append]
    cases stops : part.findSome? (fault? c routes name) with
    | some fault =>
      have stopped : reading c routes name part = .error fault := by rw [reading, stops]
      have front : reached c routes name (part :: rest) = part := by rw [reached, stops]
      rw [front, stopped]
      refine asked.last ?_
      rw [settles, stopped]
      exact (Work.does_ofExcept _).fails _
    | none =>
      have found : reading c routes name part = .ok (part.filterMap (read? c routes name)) := by
        rw [reading, stops]
      have front : reached c routes name (part :: rest) = part ++ reached c routes name rest := by
        rw [reached, stops]
      rw [front, found, List.filterMap_append]
      refine asked.bind ?_
      rw [settles, found]
      exact (Work.does_ofExcept _).next (ih.map (part.filterMap (read? c routes name) ++ ·))

variable {c routes name}

theorem reached_of_harmless {parts : List (List String)}
    (harmless : ∀ path ∈ parts.flatten, fault? c routes name path = none) :
    reached c routes name parts = parts.flatten := by
  induction parts with
  | nil => rfl
  | cons part rest ih =>
    rw [List.flatten_cons] at harmless ⊢
    have goes : part.findSome? (fault? c routes name) = none :=
      List.findSome?_eq_none_iff.2 fun path member => harmless path (List.mem_append_left _ member)
    rw [reached, goes, ih fun path member => harmless path (List.mem_append_right _ member)]

/-- The batch with the first fault is the last one that is asked for. -/
theorem reached_of_fault {parts : List (List String)} {k : Nat} {part : List String}
    (harmless : ∀ path ∈ (parts.take k).flatten, fault? c routes name path = none)
    (placed : parts[k]? = some part) {path : String} (member : path ∈ part)
    (stops : fault? c routes name path ≠ none) :
    reached c routes name parts = (parts.take (k + 1)).flatten := by
  induction k generalizing parts with
  | zero =>
    obtain ⟨rest, rfl⟩ : ∃ rest, parts = part :: rest := by
      cases parts with
      | nil => simp at placed
      | cons first rest => exact ⟨rest, by rw [Option.some.inj placed]⟩
    cases found : part.findSome? (fault? c routes name) with
    | none => exact absurd (List.findSome?_eq_none_iff.1 found path member) stops
    | some fault => simp [reached, found]
  | succ k ih =>
    cases parts with
    | nil => simp at placed
    | cons first rest =>
      rw [List.take_succ_cons, List.flatten_cons] at harmless ⊢
      have goes : first.findSome? (fault? c routes name) = none :=
        List.findSome?_eq_none_iff.2 fun path inside => harmless path (List.mem_append_left _ inside)
      rw [reached, goes, ih (fun path inside => harmless path (List.mem_append_right _ inside)) placed]

end Reading

section Files

variable {c : Client} {routes : Routes} {name : RepoName} {paths : List String}
  {maxFiles batchSize : Json} {most size : Nat}

variable (c routes name paths) in
theorem does_slices (bound : maxFiles.whole? = some (most : Int))
    (sized : batchSize.whole? = some (size : Int)) (positive : 0 < size) :
    Work.Does (files c routes name (paths.map .str) maxFiles batchSize)
      ((reached c routes name (slices size (paths.take most))).filterMap (request? c name))
      (reading c routes name (paths.take most)) := by
  have cut : batchesOf size (Generate.upTo (some (most : Int)) (paths.map Json.str)) =
      .ok ((slices size (paths.take most)).map (·.map .str)) := by
    rw [Generate.upTo_natCast, ← List.map_take, batchesOf, if_neg (by omega), if_neg (by omega),
      Int.toNat_natCast, batches_eq]
  have asked := does_runBatches c routes name (slices size (paths.take most))
  rw [slices_flatten positive] at asked
  refine (Work.does_value (Json.asBound_of_whole? bound)).next ?_
  refine (Work.does_value (Json.asWhole_of_whole? sized)).next ?_
  refine (Work.does_value cut).next ?_
  cases came : reading c routes name (paths.take most) with
  | error fault =>
    rw [came] at asked
    exact asked.fails _
  | ok found =>
    rw [came] at asked
    exact asked.last ((Work.does_info _).next (Work.does_pure _))

theorem does_files_of_harmless (bound : maxFiles.whole? = some (most : Int))
    (sized : batchSize.whole? = some (size : Int)) (positive : 0 < size)
    (harmless : ∀ path ∈ paths.take most, fault? c routes name path = none) :
    Work.Does (files c routes name (paths.map .str) maxFiles batchSize)
      ((paths.take most).filterMap (request? c name))
      (.ok ((paths.take most).filterMap (read? c routes name))) := by
  have does := does_slices c routes name paths bound sized positive
  have goes : reached c routes name (slices size (paths.take most)) = paths.take most := by
    rw [reached_of_harmless, slices_flatten positive]
    rwa [slices_flatten positive]
  rwa [goes, reading, List.findSome?_eq_none_iff.2 harmless] at does

theorem does_files_of_fault (bound : maxFiles.whole? = some (most : Int))
    (sized : batchSize.whole? = some (size : Int)) (positive : 0 < size)
    {front back : List String} {path : String} {fault : CodeDeck.Fault}
    (split : paths.take most = front ++ path :: back)
    (harmless : ∀ path ∈ front, fault? c routes name path = none)
    (stops : fault? c routes name path = some fault) :
    Work.Does (files c routes name (paths.map .str) maxFiles batchSize)
      (((paths.take most).take ((front.length / size + 1) * size)).filterMap (request? c name))
      (.error fault) := by
  have does := does_slices c routes name paths bound sized positive
  have place : (paths.take most)[front.length]? = some path := by
    rw [split, List.getElem?_append_right (Nat.le_refl _), Nat.sub_self, List.getElem?_cons_zero]
  have inside : front.length < (paths.take most).length := (List.getElem?_eq_some_iff.1 place).1
  have piece := div_lt_length_slices positive inside
  have before : front.length / size * size ≤ front.length := Nat.div_mul_le_self ..
  have within : path ∈ ((paths.take most).drop (front.length / size * size)).take size := by
    have offset := Nat.mod_lt front.length positive
    have whole := Nat.div_add_mod front.length size
    refine List.mem_iff_getElem?.2 ⟨front.length % size, ?_⟩
    rw [List.getElem?_take_of_lt offset, List.getElem?_drop, Nat.mul_comm, whole, place]
  have asked : reached c routes name (slices size (paths.take most)) =
      (paths.take most).take ((front.length / size + 1) * size) := by
    rw [← take_slices_flatten piece]
    refine reached_of_fault ?_ (getElem?_slices piece) within (by rw [stops]; exact Option.some_ne_none _)
    intro p member
    rw [take_slices_flatten (Nat.le_of_lt piece), split, List.take_append_of_le_length before] at member
    exact harmless p (List.mem_of_mem_take member)
  have first : (paths.take most).findSome? (fault? c routes name) = some fault := by
    rw [split, List.findSome?_append, List.findSome?_eq_none_iff.2 harmless, Option.none_or,
      List.findSome?_cons, stops]
  rwa [asked, reading, first] at does

end Files

end CodeDeck.Fetch
