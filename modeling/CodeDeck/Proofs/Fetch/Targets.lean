import CodeDeck.Proofs.Fetch.Misfits
import CodeDeck.Proofs.Fetch.Requests

/-! The targets by which files are asked for. What a client is given for a file holds the path at its end, in percent
encoding, and neither the sign of a query nor that of a fragment. The bytes of the path can be read back. It has no
part of points, so that a client has nothing to take back of it, and two paths have two targets. -/

namespace CodeDeck.Fetch

open CodeDeck.Text CodeDeck.Http

/-- A letter or digit of ASCII, or one of six signs. -/
def isTargetChar (c : Char) : Bool := c.isAlphanum || c ∈ ['_', '.', '-', '~', '/', '%']

def contentsFront (name : RepoName) : List Char :=
  ("/repos/" ++ name.owner ++ "/" ++ name.repo ++ "/contents/").toList

section Characters

theorem letter_or_sign {signs more : List Char} (wider : signs ⊆ more) {c : Char}
    (given : (c.isAlphanum || c ∈ signs) = true) : (c.isAlphanum || c ∈ more) = true := by
  rw [Bool.or_eq_true, decide_eq_true_eq] at given ⊢
  exact given.imp_right (@wider c)

theorem isTargetChar_of_isUnreserved {c : Char} (unreserved : Percent.isUnreserved c = true) :
    isTargetChar c = true := letter_or_sign (by simp) unreserved

theorem isTargetChar_of_isPlainChar {c : Char} (plain : isPlainChar c = true) : isTargetChar c = true :=
  letter_or_sign (by simp) plain

theorem isTargetChar_of_mem_encodePath {path : List Char} {c : Char} (member : c ∈ Percent.encodePath path) :
    isTargetChar c = true := by
  rcases Percent.mem_encodePath member with kept | rfl
  · exact isTargetChar_of_isUnreserved kept
  · decide

variable {name : RepoName}

theorem contentsFront_eq (name : RepoName) :
    contentsFront name =
      "/repos/".toList ++ name.owner.toList ++ ['/'] ++ name.repo.toList ++ "/contents/".toList := by
  simp only [contentsFront, String.toList_append]
  rfl

theorem isTargetChar_of_mem_contentsFront (plain : name.IsPlain) {c : Char} (member : c ∈ contentsFront name) :
    isTargetChar c = true := by
  have repos : "/repos/".toList.all isTargetChar = true := by decide
  have contents : "/contents/".toList.all isTargetChar = true := by decide
  simp only [contentsFront_eq, List.mem_append, List.mem_singleton] at member
  rcases member with (((first | owner) | rfl) | repo) | last
  · exact List.all_eq_true.1 repos c first
  · exact isTargetChar_of_isPlainChar (plain.owner c owner)
  · decide
  · exact isTargetChar_of_isPlainChar (plain.repo c repo)
  · exact List.all_eq_true.1 contents c last

end Characters

section Parts

theorem dotFree_of_plain {s : String} (plain : IsPlain s) (named : ¬ Url.IsDots s.toList) : Url.DotFree s.toList := by
  have free : '/' ∉ s.toList := fun member => absurd (plain _ member) (by decide)
  rw [Url.DotFree, splitOn_of_notMem free]
  exact List.forall_mem_singleton.2 named

theorem dotFree_encodePath {path : List Char} (free : Url.DotFree path) : Url.DotFree (Percent.encodePath path) := by
  intro part member
  rw [Percent.splitOn_encodePath] at member
  obtain ⟨piece, kept, rfl⟩ := List.mem_map.1 member
  have single : Percent.encodePath ['.'] = ['.'] := by decide
  have double : Percent.encodePath ['.', '.'] = ['.', '.'] := by decide
  rintro (same | same)
  · exact free piece kept (.inl (Percent.encodePath_inj (same.trans single.symm)))
  · exact free piece kept (.inr (Percent.encodePath_inj (same.trans double.symm)))

structure IsNamed (name : RepoName) : Prop where
  owner : ¬ Url.IsDots name.owner.toList
  repo : ¬ Url.IsDots name.repo.toList

variable {name : RepoName} {path : String}

theorem fileReference_eq (name : RepoName) (path : String) :
    fileReference name path = contentsFront name ++ Percent.encodePath path.toList := by
  have middle : repoReference name ++ "/contents/".toList = contentsFront name := by
    rw [contentsFront_eq]
    change "/repos/".toList ++ (name.owner ++ "/" ++ name.repo).toList ++ "/contents/".toList = _
    simp only [String.toList_append, List.append_assoc]
    rfl
  change repoReference name ++ "/contents/".toList ++ Percent.encodePath path.toList = _
  rw [middle]

theorem dotFree_fileReference (plain : name.IsPlain) (named : IsNamed name) (free : Url.DotFree path.toList) :
    Url.DotFree (fileReference name path) := by
  have parts : fileReference name path =
      [] ++ '/' :: ("repos".toList ++ '/' :: (name.owner.toList ++ '/' :: (name.repo.toList ++
        '/' :: ("contents".toList ++ '/' :: Percent.encodePath path.toList)))) := by
    rw [fileReference_eq, contentsFront_eq]
    simp
  rw [parts]
  simp only [Url.dotFree_append_slash]
  exact ⟨by decide, by decide, dotFree_of_plain plain.owner named.owner, dotFree_of_plain plain.repo named.repo,
    by decide, dotFree_encodePath free⟩

end Parts

section Targets

/-- A reference of the characters of targets. It starts with one slash and has no part of points. -/
structure IsTidy (reference : List Char) : Prop where
  rooted : ∃ rest, reference = '/' :: rest ∧ rest.head? ≠ some '/'
  plain : ∀ ch ∈ reference, isTargetChar ch = true
  dotFree : Url.DotFree reference

/-- The client asks for a tidy reference by the target that it makes below the path of its base, if at all. -/
def AsksBelow (c : Client) (front : List Char) : Prop :=
  ∀ reference call, IsTidy reference → c.call reference none = .ok call → call.target = front ++ reference

variable {name : RepoName} {path : String}

theorem isTidy_fileReference (plain : name.IsPlain) (named : IsNamed name) (free : Url.DotFree path.toList) :
    IsTidy (fileReference name path) where
  rooted := (isReference_file plain path).rooted
  plain := by
    rw [fileReference_eq]
    intro ch member
    exact (List.mem_append.1 member).elim (isTargetChar_of_mem_contentsFront plain) isTargetChar_of_mem_encodePath
  dotFree := dotFree_fileReference plain named free

/-- What a client is given for a file is made of plain characters, and the path can be read back from it. A client that
asks below its base asks by a target that names no other file. -/
theorem contents_target {c : Client} {front : List Char} (below : AsksBelow c front) (plain : name.IsPlain)
    (named : IsNamed name) (free : Url.DotFree path.toList) :
    ∃ tail, fileReference name path = contentsFront name ++ tail ∧
      (∀ ch ∈ contentsFront name ++ tail, isTargetChar ch = true) ∧
      Percent.bytes 0 tail = Utf8.bytesOf path ∧
      ∀ call, fileCall c name (.str path) = .ok call →
        call.target = front ++ contentsFront name ++ tail ∧
        ∀ other call', Url.DotFree other.toList → fileCall c name (.str other) = .ok call' →
          call'.target = call.target → other = path := by
  have tidy := isTidy_fileReference plain named free
  have reference := fileReference_eq name path
  have asked {other : String} {call : Call} (free : Url.DotFree other.toList)
      (taken : fileCall c name (.str other) = .ok call) :
      call.target = front ++ (contentsFront name ++ Percent.encodePath other.toList) := by
    rw [← fileReference_eq]
    exact below _ call (isTidy_fileReference plain named free) taken
  refine ⟨Percent.encodePath path.toList, reference, reference ▸ tidy.plain, Percent.bytes_encodePath path, ?_⟩
  intro call taken
  have target := asked free taken
  refine ⟨target.trans (List.append_assoc ..).symm, fun other call' free' taken' same => ?_⟩
  rw [target, asked free' taken'] at same
  exact String.toList_inj.1 (Percent.encodePath_inj (List.append_cancel_left (List.append_cancel_left same)))

theorem isPathChar_of_isTargetChar {ch : Char} (plain : isTargetChar ch = true) : Url.isPathChar ch = true := by
  rw [isTargetChar, Bool.or_eq_true, decide_eq_true_eq] at plain
  rcases plain with letter | sign
  · exact isPathChar_of_isAlphanum letter
  · have signs : ['_', '.', '-', '~', '/', '%'].all Url.isPathChar = true := by decide
    exact List.all_eq_true.1 signs ch sign

/-- The client of a base takes nothing back of the base and of the reference, which stand side by side in the target. -/
theorem asksBelow_client {e : Endpoint} {front : List Char} (base : e.base.IsBase)
    (ends : e.base.front = front ++ ['/']) : AsksBelow e.client front := by
  intro reference call tidy taken
  have isReference : Url.IsReference reference :=
    ⟨tidy.rooted, fun ch member => isPathChar_of_isTargetChar (tidy.plain ch member)⟩
  obtain ⟨rest, slash, _⟩ := tidy.rooted
  rw [Endpoint.call_reference base isReference] at taken
  split at taken
  · obtain rfl := Except.ok.inj taken
    have joined : e.base.front ++ reference.drop 1 = front ++ reference := by
      rw [ends, slash]
      simp
    have clear : Url.DotFree (front ++ reference) := by
      have before := base.dotFree_front
      have behind := tidy.dotFree
      rw [ends, Url.dotFree_append_slash] at before
      rw [slash, ← List.nil_append ('/' :: rest), Url.dotFree_append_slash] at behind
      rw [slash, Url.dotFree_append_slash]
      exact ⟨before.1, behind.2⟩
    have whole : (e.base.below reference).path = front ++ reference := by
      rw [base.path_below isReference, joined, Url.resolvePath_of_dotFree clear]
    have some : (e.base.below reference).path ≠ [] := by
      rw [whole, slash]
      simp
    change (e.base.below reference).target = front ++ reference
    rw [Url.target_eq_front rfl, Url.front, if_neg some, whole]
  · contradiction

theorem isBase_plain : plainEndpoint.base.IsBase where
  typed := by decide
  rooted := .inl rfl
  query := rfl
  fragment := rfl
  settled := by decide +kernel

/-- Signs that have a meaning in addresses, and a letter of two bytes, are encoded in the target. -/
theorem hard_path_asked :
    AsksBelow plainClient [] ∧ plainName.IsPlain ∧ IsNamed plainName ∧ Url.DotFree "a#1/é?%.ts".toList ∧
    ∃ call, fileCall plainClient plainName (.str "a#1/é?%.ts") = .ok call ∧
      call.target = "/repos/o/r/contents/a%231/%C3%A9%3F%25.ts".toList := by
  have below : AsksBelow plainClient [] := asksBelow_client isBase_plain rfl
  have plain : plainName.IsPlain := ⟨by decide, by decide⟩
  have named : IsNamed plainName := ⟨by decide, by decide⟩
  have free : Url.DotFree "a#1/é?%.ts".toList := by decide
  obtain ⟨tail, reference, _, _, asked⟩ := contents_target below plain named free
  obtain ⟨call, taken⟩ := ((calls_of_fits isBase_plain plain).2.2 "a#1/é?%.ts").2 (by decide)
  have spelled : fileReference plainName "a#1/é?%.ts" = "/repos/o/r/contents/a%231/%C3%A9%3F%25.ts".toList := by
    decide +kernel
  refine ⟨below, plain, named, free, call, taken, ?_⟩
  rw [(asked call taken).1, List.nil_append, ← reference, spelled]

end Targets

end CodeDeck.Fetch
