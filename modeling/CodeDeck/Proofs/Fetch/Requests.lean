import CodeDeck.Fetch.Files
import CodeDeck.Proofs.Fetch.Address

/-! What is asked for a repository. Of a plain name come references of ordinary characters, which the client of a base
address takes whenever they are not too long. -/

namespace CodeDeck

open CodeDeck.Text CodeDeck.Http

def isPlainChar (c : Char) : Bool := c.isAlphanum || c ∈ ['-', '_', '.']

def IsPlain (s : String) : Prop := ∀ c ∈ s.toList, isPlainChar c = true

instance (s : String) : Decidable (IsPlain s) :=
  decidable_of_iff (s.toList.all isPlainChar = true) List.all_eq_true

structure RepoName.IsPlain (name : RepoName) : Prop where
  owner : CodeDeck.IsPlain name.owner
  repo : CodeDeck.IsPlain name.repo

theorem lt_of_isAlphanum {c : Char} (letter : c.isAlphanum = true) : c.toNat < 128 := by
  have within (last : Char) (ascii : last.toNat < 128) (bound : c.val ≤ last.val) : c.toNat < 128 :=
    Nat.lt_of_le_of_lt (UInt32.le_iff_toNat_le.1 bound) ascii
  rcases (Bool.or_eq_true _ _).mp letter with alpha | digit
  · rcases (Bool.or_eq_true _ _).mp alpha with upper | lower
    · exact within 'Z' (by decide) (of_decide_eq_true upper).2
    · exact within 'z' (by decide) (of_decide_eq_true ((Bool.and_eq_true _ _).mp lower).2)
  · exact within '9' (by decide) (of_decide_eq_true ((Bool.and_eq_true _ _).mp digit).2)

theorem isPathChar_of_isAlphanum {c : Char} (letter : c.isAlphanum = true) : Url.isPathChar c = true := by
  have ascii : ∀ n < 128, (Char.ofNat n).isAlphanum = true → Url.isPathChar (Char.ofNat n) = true := by
    decide
  have code := ascii c.toNat (lt_of_isAlphanum letter)
  rw [Char.ofNat_toNat] at code
  exact code letter

theorem isPathChar_of_isPlainChar {c : Char} (plain : isPlainChar c = true) :
    Url.isPathChar c = true := by
  rw [isPlainChar, Bool.or_eq_true, decide_eq_true_eq] at plain
  rcases plain with letter | sign
  · exact isPathChar_of_isAlphanum letter
  · have signs : ['-', '_', '.'].all Url.isPathChar = true := by decide
    exact List.all_eq_true.1 signs c sign

theorem isPathChar_of_isUnreserved {c : Char} (unreserved : Percent.isUnreserved c = true) :
    Url.isPathChar c = true := by
  rw [Percent.isUnreserved, Bool.or_eq_true, decide_eq_true_eq] at unreserved
  rcases unreserved with letter | sign
  · exact isPathChar_of_isAlphanum letter
  · have signs : ['_', '.', '-', '~', '/'].all Url.isPathChar = true := by decide
    exact List.all_eq_true.1 signs c sign

namespace Fetch

variable {name : RepoName}

theorem isReference_append {reference more : List Char} (isReference : Url.IsReference reference)
    (long : 2 ≤ reference.length) (ordinary : ∀ c ∈ more, Url.isPathChar c = true) :
    Url.IsReference (reference ++ more) := by
  obtain ⟨⟨rest, rfl, single⟩, plain⟩ := isReference
  refine ⟨⟨rest ++ more, rfl, ?_⟩, fun c member => ?_⟩
  · cases rest with
    | nil => simp at long
    | cons c others => simpa using single
  · exact (List.mem_append.1 member).elim (plain c) (ordinary c)

theorem isReference_repo (plain : name.IsPlain) : Url.IsReference (repoReference name) := by
  have signs : "/repos/".toList.all Url.isPathChar = true := by decide
  have start : Url.IsReference "/repos/".toList :=
    ⟨⟨"repos/".toList, rfl, by decide⟩, List.all_eq_true.1 signs⟩
  refine isReference_append start (by decide) fun c member => ?_
  rw [RepoName.fullName, String.toList_append, String.toList_append, List.mem_append,
    List.mem_append] at member
  rcases member with (owner | slash) | repo
  · exact isPathChar_of_isPlainChar (plain.owner c owner)
  · obtain rfl : c = '/' := List.mem_singleton.1 slash
    decide
  · exact isPathChar_of_isPlainChar (plain.repo c repo)

theorem two_le_length_repoReference (name : RepoName) : 2 ≤ (repoReference name).length := by
  change 2 ≤ ("/repos/".toList ++ name.fullName.toList).length
  rw [List.length_append]
  exact Nat.le_trans (by decide : 2 ≤ "/repos/".toList.length) (Nat.le_add_right ..)

theorem isReference_below (plain : name.IsPlain) {more : List Char}
    (ordinary : ∀ c ∈ more, Url.isPathChar c = true) :
    Url.IsReference (repoReference name ++ more) :=
  isReference_append (isReference_repo plain) (two_le_length_repoReference name) ordinary

theorem isReference_tree (plain : name.IsPlain) {branch : String} (plainBranch : IsPlain branch) :
    Url.IsReference (treeReference name branch) := by
  change Url.IsReference (repoReference name ++ "/git/trees/".toList ++ branch.toList)
  rw [List.append_assoc]
  refine isReference_below plain fun c member => ?_
  rcases List.mem_append.1 member with middle | inside
  · have signs : "/git/trees/".toList.all Url.isPathChar = true := by decide
    exact List.all_eq_true.1 signs c middle
  · exact isPathChar_of_isPlainChar (plainBranch c inside)

theorem isReference_file (plain : name.IsPlain) (path : String) :
    Url.IsReference (fileReference name path) := by
  change Url.IsReference (repoReference name ++ "/contents/".toList ++ Percent.encodePath path.toList)
  rw [List.append_assoc]
  refine isReference_below plain fun c member => ?_
  rcases List.mem_append.1 member with middle | inside
  · have signs : "/contents/".toList.all Url.isPathChar = true := by decide
    exact List.all_eq_true.1 signs c middle
  · exact Url.isPathChar_of_mem_encode (fun _ => isPathChar_of_isUnreserved) inside

end Fetch

namespace Http.Endpoint

def Fits (e : Endpoint) (reference : List Char) : Prop :=
  e.base.front.length + reference.length ≤ Url.maxLength + 1

instance (e : Endpoint) (reference : List Char) : Decidable (e.Fits reference) :=
  inferInstanceAs (Decidable (_ ≤ _))

variable {e : Endpoint} {reference : List Char}

theorem call_reference (base : e.base.IsBase) (isReference : Url.IsReference reference) :
    e.client.call reference none =
      if e.Fits reference then .ok (e.callTo (e.base.below reference)) else .error .invalidAddress := by
  have joined := base.join? isReference
  by_cases fits : e.Fits reference
  · have short : e.base.front.length + reference.length ≤ Url.maxLength + 1 := fits
    rw [if_pos short] at joined
    simp only [client, url?, joined, if_pos fits]
    rfl
  · have long : ¬ e.base.front.length + reference.length ≤ Url.maxLength + 1 := fits
    rw [if_neg long] at joined
    simp only [client, url?, joined, if_neg fits]
    rfl

theorem call_query (base : e.base.IsBase) (isReference : Url.IsReference reference) (fits : e.Fits reference)
    {query : List Char} (short : query.length ≤ Url.maxLength) (ordinary : ∀ c ∈ query, Url.isQueryChar c = true) :
    e.client.call reference (some query) =
      .ok (e.callTo { e.base.below reference with query := some query }) := by
  have joined := (base.join? isReference).trans (if_pos fits)
  have asked := base.withQuery isReference fits short ordinary
  simp only [client, url?, joined, bind, Option.bind, asked]

end Http.Endpoint

namespace Fetch

variable {e : Endpoint} {name : RepoName}

/-- The client of a base asks for all that belongs to a plain name, as long as the addresses are not too long. -/
theorem calls_of_fits (base : e.base.IsBase) (plain : name.IsPlain) :
    (e.Fits (repoReference name) → ∃ call, e.client.call (repoReference name) none = .ok call) ∧
    (∀ branch, IsPlain branch → e.Fits (treeReference name branch) →
      ∃ call, e.client.call (treeReference name branch) (some treeQuery) = .ok call) ∧
    ∀ path, (∃ call, fileCall e.client name (.str path) = .ok call) ↔ e.Fits (fileReference name path) := by
  refine ⟨fun fits => ?_, fun branch plainBranch fits => ?_, fun path => ?_⟩
  · exact ⟨_, (Endpoint.call_reference base (isReference_repo plain)).trans (if_pos fits)⟩
  · have ordinary : treeQuery.all Url.isQueryChar = true := by decide
    exact ⟨_, Endpoint.call_query base (isReference_tree plain plainBranch) fits (by decide)
      (List.all_eq_true.1 ordinary)⟩
  · have asked : fileCall e.client name (.str path) = e.client.call (fileReference name path) none := rfl
    rw [asked, Endpoint.call_reference base (isReference_file plain path)]
    constructor
    · rintro ⟨call, taken⟩
      by_contra long
      rw [if_neg long] at taken
      exact nomatch taken
    · intro fits
      exact ⟨_, if_pos fits⟩

end Fetch

end CodeDeck
