import CodeDeck.Fetch.Files
import CodeDeck.Proofs.Fetch.Journal
import CodeDeck.Proofs.Json

/-! Metadata, tree and selection. Where the service replies as it is meant to, the files to read are the
source files of the tree, each of them judged on its own. -/

namespace CodeDeck

open CodeDeck.Text CodeDeck.Http

def RepoMeta.told (v : Json) : RepoMeta :=
  { name := (v.field? "name").getD .null
    fullName := (v.field? "full_name").getD .null
    description := (v.field? "description").getD .null
    stars := (v.field? "stargazers_count").getD (.int 0)
    language := (v.field? "language").getD .null
    defaultBranch := (v.field? "default_branch").getD (.str "main") }

theorem RepoMeta.ofJson_eq_told {v name fullName : Json} (named : v.field? "name" = some name)
    (fullNamed : v.field? "full_name" = some fullName) : ofJson v = .ok (told v) := by
  have object := Json.isObject_of_field? named
  simp only [ofJson, Json.require_of_field? named, Json.require_of_field? fullNamed,
    Json.askOr_of_isObject object, told, named, fullNamed]
  rfl

namespace Json

def isSize (v : Json) : Bool := v.kind == .null || v.whole?.isSome

/-- Is it an item of a tree, with a path and perhaps a size? -/
def isEntry (v : Json) : Bool := (v.textIn? "path").isSome && (v.field? "size").all isSize

end Json

namespace Fetch

def isWithin (limit : Int) (item : Json) : Bool := ((item.field? "size").bind Json.whole?).all (· ≤ limit)

def keptPath? (limit : Int) (item : Json) : Option String :=
  (item.textIn? "path").filter fun path =>
    item.textIn? "type" == some "blob" &&
      (hasCodeExtension path.toList && !hasSkipMarker path.toList && isWithin limit item)

theorem isBlobJson_eq {item : Json} (object : item.isObject = true) :
    TreeEntry.isBlobJson item = .ok (item.textIn? "type" == some "blob") := by
  rw [TreeEntry.isBlobJson, Json.askOr_of_isObject object, Except.map]
  congr 1
  rw [Bool.eq_iff_iff, Json.same_field_iff, beq_iff_eq]

def isLarge (limit : Int) (size : Json) : Bool := size.whole?.any fun m => m != 0 && decide (limit < m)

theorem isLarge_of_pos {limit : Int} (positive : 0 < limit) (size : Json) :
    isLarge limit size = !size.whole?.all (· ≤ limit) := by
  rw [isLarge]
  cases size.whole? with
  | none => rfl
  | some m =>
    rw [Option.any_some, Option.all_some, Bool.eq_iff_iff]
    simp only [Bool.and_eq_true, bne_iff_ne, decide_eq_true_eq, Bool.not_eq_true', decide_eq_false_iff_not]
    omega

theorem tooLarge_eq {size limit : Json} {n : Int} (bound : limit.whole? = some n) (sized : size.isSize = true) :
    tooLarge size limit = .ok (isLarge n size) := by
  rw [tooLarge, isLarge]
  cases known : size.whole? with
  | none =>
    have null : size = .null := by cases size <;> simp_all [Json.isSize, Json.kind]
    simp [null, Json.truthy]
  | some m =>
    rw [Json.truthy_of_whole? known, Json.exceeds_of_whole? known bound, Option.any_some]
    cases m != 0 <;> rfl

theorem keeps_eq (path : String) (isBlob : Bool) {size limit : Json} {n : Int} (bound : limit.whole? = some n)
    (sized : size.isSize = true) :
    keeps limit ⟨.str path, isBlob, size⟩ = .ok
      (isBlob && (hasCodeExtension path.toList && !hasSkipMarker path.toList && !isLarge n size)) := by
  have judged := tooLarge_eq bound sized
  cases isBlob with
  | false => rfl
  | true =>
    cases wanted : hasCodeExtension path.toList && !hasSkipMarker path.toList with
    | true => simp [keeps, wanted, judged, Except.map]
    | false => simp [keeps, wanted]

theorem readItems_cons_skipped {item : Json} {rest : List Json}
    (other : TreeEntry.isBlobJson item = .ok false) :
    TreeEntry.readItems (item :: rest) = TreeEntry.readItems rest := by
  simp [TreeEntry.readItems, other, bind, Except.bind]

theorem readItems_cons_blob {item path : Json} {rest : List Json} {tree : List TreeEntry}
    (blob : TreeEntry.isBlobJson item = .ok true) (found : item.field? "path" = some path)
    (others : TreeEntry.readItems rest = .ok tree) :
    TreeEntry.readItems (item :: rest) =
      .ok (⟨path, true, (item.field? "size").getD .null⟩ :: tree) := by
  have named := Json.require_of_field? found
  have sized := Json.askOr_of_isObject (Json.isObject_of_field? found) "size" .null
  simp only [TreeEntry.readItems, blob, named, sized, others, bind, Except.bind]
  rfl

theorem isWithin_eq (n : Int) (item : Json) :
    isWithin n item = ((item.field? "size").getD .null).whole?.all (· ≤ n) := by
  unfold isWithin
  cases item.field? "size" <;> rfl

theorem select_readItems {limit : Json} {n : Int} (bound : limit.whole? = some n) (positive : 0 < n)
    {items : List Json} (entries : ∀ item ∈ items, item.isEntry = true) :
    ∃ tree, TreeEntry.readItems items = .ok tree ∧
      select limit tree = .ok ((items.filterMap (keptPath? n)).map .str) := by
  induction items with
  | nil => exact ⟨[], rfl, rfl⟩
  | cons item rest ih =>
    obtain ⟨tree, read, selected⟩ := ih fun other member => entries other (List.mem_cons_of_mem _ member)
    have entry := entries item List.mem_cons_self
    rw [Json.isEntry, Bool.and_eq_true] at entry
    obtain ⟨path, named⟩ := Option.isSome_iff_exists.1 entry.1
    have found := Json.field?_of_textIn? named
    have object := Json.isObject_of_field? found
    have typed := isBlobJson_eq object
    cases blob : item.textIn? "type" == some "blob" with
    | false =>
      have left : keptPath? n item = none := by simp [keptPath?, named, blob]
      rw [blob] at typed
      rw [readItems_cons_skipped typed, List.filterMap_cons_none left]
      exact ⟨tree, read, selected⟩
    | true =>
      have sized : ((item.field? "size").getD .null).isSize = true := by
        cases known : item.field? "size" with
        | none => rfl
        | some size => simpa [known] using entry.2
      have judged := keeps_eq path true bound sized
      rw [Bool.true_and, isLarge_of_pos positive, Bool.not_not, ← isWithin_eq] at judged
      rw [blob] at typed
      refine ⟨_, readItems_cons_blob typed found read, ?_⟩
      simp only [select, judged, selected, bind, Except.bind]
      cases kept : hasCodeExtension path.toList && !hasSkipMarker path.toList && isWithin n item with
      | true =>
        have chosen : keptPath? n item = some path := by
          rw [keptPath?, named, Option.filter_some, blob, kept, Bool.and_self, if_pos rfl]
        rw [List.filterMap_cons_some chosen]
        rfl
      | false =>
        have left : keptPath? n item = none := by
          rw [keptPath?, named, Option.filter_some, blob, kept, Bool.and_false, if_neg Bool.noConfusion]
        rw [List.filterMap_cons_none left]
        rfl

section Served

variable (c : Client) (routes : Routes) (name : RepoName)

def asked? (reference : List Char) (query : Option (List Char)) : Option Request :=
  (c.call reference query).toOption.map Call.request

def value? (reference : List Char) (query : Option (List Char)) : Option Json :=
  match c.call reference query with
  | .error _ => none
  | .ok call =>
    match (routes.reply call).read call with
    | .ok (.ok v) => some v
    | _ => none

def metadata : Json := (value? c routes (repoReference name) none).getD .null

def branch : String := (RepoMeta.told (metadata c routes name)).defaultBranch.text?.getD ""

def listing? : Option (List Json) :=
  ((value? c routes (treeReference name (branch c routes name)) (some treeQuery)).bind (·.field? "tree")).bind
    Json.items?

def listing : List Json := (listing? c routes name).getD []

/-- Does the service tell metadata and tree of the repository as it is meant to? -/
structure IsServed : Prop where
  named : ((metadata c routes name).textIn? "name").isSome = true
  fullNamed : ((metadata c routes name).textIn? "full_name").isSome = true
  branched : (RepoMeta.told (metadata c routes name)).defaultBranch.text?.isSome = true
  listed : (listing? c routes name).isSome = true
  entries : ∀ item ∈ listing c routes name, item.isEntry = true

variable {c routes name}

theorem does_ask (call : Call) :
    Work.Does (ask routes call) [call.request] (.ok ((routes.reply call).read call)) :=
  (Work.does_sent _).bind (Work.does_pure _)

theorem call_of_value? {reference : List Char} {query : Option (List Char)} {v : Json}
    (sent : value? c routes reference query = some v) :
    ∃ call, c.call reference query = .ok call ∧ asked? c reference query = some call.request ∧
      (routes.reply call).read call = .ok (.ok v) := by
  unfold value? at sent
  cases taken : c.call reference query with
  | error fault => simp [taken] at sent
  | ok call =>
    simp only [taken] at sent
    split at sent
    · next read =>
      obtain rfl := Option.some.inj sent
      exact ⟨call, rfl, by rw [asked?, taken]; rfl, read⟩
    · contradiction

theorem IsServed.metadata_sent (served : IsServed c routes name) :
    value? c routes (repoReference name) none = some (metadata c routes name) := by
  have named := served.named
  unfold metadata at named ⊢
  cases sent : value? c routes (repoReference name) none with
  | none => simp [sent, Json.textIn?, Json.field?] at named
  | some v => rfl

theorem IsServed.branch_told (served : IsServed c routes name) :
    (RepoMeta.told (metadata c routes name)).defaultBranch = .str (branch c routes name) := by
  obtain ⟨text, told⟩ := Option.isSome_iff_exists.1 served.branched
  rw [branch, told]
  exact Json.eq_str_of_text? told

theorem does_repo (served : IsServed c routes name) :
    ∃ request, asked? c (repoReference name) none = some request ∧
      Work.Does (repo c routes name) [request] (.ok (RepoMeta.told (metadata c routes name))) := by
  obtain ⟨_, named⟩ := Option.isSome_iff_exists.1 served.named
  obtain ⟨_, fullNamed⟩ := Option.isSome_iff_exists.1 served.fullNamed
  have told := RepoMeta.ofJson_eq_told (Json.field?_of_textIn? named) (Json.field?_of_textIn? fullNamed)
  obtain ⟨call, taken, asked, sent⟩ := call_of_value? served.metadata_sent
  refine ⟨call.request, asked, (Work.does_value taken).next ?_⟩
  refine (does_ask call).last ?_
  exact (Work.does_value sent).next (Work.does_value told)

theorem does_tree (served : IsServed c routes name) {entries : List TreeEntry}
    (read : TreeEntry.readItems (listing c routes name) = .ok entries) :
    ∃ request, asked? c (treeReference name (branch c routes name)) (some treeQuery) = some request ∧
      Work.Does (tree c routes name (branch c routes name)) [request] (.ok entries) := by
  obtain ⟨items, listed⟩ := Option.isSome_iff_exists.1 served.listed
  have same : listing c routes name = items := by rw [listing, listed, Option.getD_some]
  obtain ⟨field, found, itemized⟩ := Option.bind_eq_some_iff.1 listed
  obtain ⟨v, sent, held⟩ := Option.bind_eq_some_iff.1 found
  have answered := Json.askOr_of_isObject (Json.isObject_of_field? held) "tree" (.arr [])
  have array := Json.eq_arr_of_items? itemized
  have told : TreeEntry.ofJson v = .ok entries := by
    rw [same] at read
    rw [TreeEntry.ofJson, answered, held, array]
    exact read
  obtain ⟨call, taken, asked, sent⟩ := call_of_value? sent
  refine ⟨call.request, asked, (Work.does_value taken).next ?_⟩
  refine (does_ask call).last ?_
  exact (Work.does_value sent).next (Work.does_value told)

end Served

end Fetch

end CodeDeck
