import CodeDeck.Http.Endpoint
import CodeDeck.Proofs.Text.Percent

/-! Addresses below a base. A reference of ordinary characters is joined to every base in normal form as
long as the two together are not too long, and the path is all that is new in the address. -/

namespace CodeDeck.Http

open CodeDeck.Text

theorem encode_of_safe {safe : Char → Bool} {s : List Char} (ordinary : ∀ c ∈ s, safe c = true) :
    Percent.encode safe s = s := by
  induction s with
  | nil => rfl
  | cons c rest ih =>
    have others := ih fun d member => ordinary d (List.mem_cons_of_mem _ member)
    simp only [Percent.encode, List.flatMap_cons, ordinary c List.mem_cons_self, if_true] at others ⊢
    rw [others]
    rfl

namespace Url

/-- The room that parts take with a slash behind each of them. -/
def room : List (List Char) → Nat
  | [] => 0
  | part :: rest => part.length + 1 + room rest

theorem room_append (first others : List (List Char)) : room (first ++ others) = room first + room others := by
  induction first with
  | nil => simp [room]
  | cons part rest ih => simp [room, ih, Nat.add_assoc]

theorem room_reverse (parts : List (List Char)) : room parts.reverse = room parts := by
  induction parts with
  | nil => rfl
  | cons part rest ih =>
    rw [List.reverse_cons, room_append, ih, Nat.add_comm]
    simp [room]

theorem length_intercalate_slash (parts : List (List Char)) :
    (List.intercalate ['/'] parts).length = room parts - 1 := by
  induction parts with
  | nil => rfl
  | cons part rest ih =>
    cases rest with
    | nil => simp [room]
    | cons second others =>
      rw [List.intercalate_cons_cons, List.length_append, List.length_append, ih]
      simp [room]
      omega

theorem room_resolveParts (done parts : List (List Char)) :
    room (resolveParts done parts) ≤ room done + room parts := by
  induction parts generalizing done with
  | nil => exact Nat.le_of_eq (room_reverse done)
  | cons part rest ih =>
    have more : room (part :: rest) = part.length + 1 + room rest := rfl
    unfold resolveParts
    split
    · have bound := ih done
      omega
    · split
      · have fewer : room (if done = [] ∨ done = [[]] then done else done.drop 1) ≤ room done := by
          split
          · exact Nat.le_refl _
          · cases done with
            | nil => exact Nat.le_refl _
            | cons last before => simp [room]
        have bound := ih (if done = [] ∨ done = [[]] then done else done.drop 1)
        omega
      · have pushed : room (part :: done) = part.length + 1 + room done := rfl
        have bound := ih (part :: done)
        omega

def IsDots (part : List Char) : Prop := part = ['.'] ∨ part = ['.', '.']

instance (part : List Char) : Decidable (IsDots part) := inferInstanceAs (Decidable (_ ∨ _))

theorem mem_resolveParts {done parts : List (List Char)} {part : List Char}
    (member : part ∈ resolveParts done parts) : part ∈ done ∨ part ∈ parts ∧ ¬ IsDots part := by
  induction parts generalizing done with
  | nil => exact .inl (List.mem_reverse.1 member)
  | cons first rest ih =>
    have behind (later : part ∈ rest ∧ ¬ IsDots part) : part ∈ first :: rest ∧ ¬ IsDots part :=
      ⟨List.mem_cons_of_mem _ later.1, later.2⟩
    unfold resolveParts at member
    split at member
    · exact (ih member).imp_right behind
    · next single =>
      split at member
      · rcases ih member with kept | later
        · split at kept
          · exact .inl kept
          · exact .inl (List.mem_of_mem_drop kept)
        · exact .inr (behind later)
      · next double =>
        rcases ih member with kept | later
        · rcases List.mem_cons.1 kept with rfl | old
          · exact .inr ⟨List.mem_cons_self, fun dots => dots.elim single double⟩
          · exact .inl old
        · exact .inr (behind later)

theorem resolveParts_of_plain {parts : List (List Char)} (plain : ∀ part ∈ parts, ¬ IsDots part)
    (done : List (List Char)) : resolveParts done parts = done.reverse ++ parts := by
  induction parts generalizing done with
  | nil => simp [resolveParts]
  | cons part rest ih =>
    have first := plain part List.mem_cons_self
    rw [resolveParts, if_neg fun single => first (.inl single), if_neg fun double => first (.inr double),
      ih fun p member => plain p (List.mem_cons_of_mem _ member)]
    simp

theorem resolveParts_rooted (done parts : List (List Char)) :
    ∃ others, resolveParts (done ++ [[]]) parts = [] :: others := by
  induction parts generalizing done with
  | nil => exact ⟨done.reverse, by simp [resolveParts]⟩
  | cons part rest ih =>
    unfold resolveParts
    split
    · exact ih done
    · split
      · cases done with
        | nil => exact ih []
        | cons last before =>
          have shorter : (if last :: before ++ [[]] = [] ∨ last :: before ++ [[]] = [[]] then
              last :: before ++ [[]] else (last :: before ++ [[]]).drop 1) = before ++ [[]] := by
            simp
          rw [shorter]
          exact ih before
      · exact ih (part :: done)

theorem length_resolvePath_le (path : List Char) : (resolvePath path).length ≤ path.length := by
  have whole := congrArg List.length (intercalate_splitOn '/' path)
  rw [length_intercalate_slash] at whole
  have bound := room_resolveParts [] (splitOn '/' path)
  rw [resolvePath, length_intercalate_slash]
  have none : room [] = 0 := rfl
  omega

theorem mem_intercalate_slash {parts : List (List Char)} {c : Char}
    (member : c ∈ List.intercalate ['/'] parts) : c = '/' ∨ ∃ part ∈ parts, c ∈ part := by
  induction parts with
  | nil => exact absurd member List.not_mem_nil
  | cons part rest ih =>
    cases rest with
    | nil =>
      rw [List.intercalate_singleton] at member
      exact .inr ⟨part, List.mem_cons_self, member⟩
    | cons second others =>
      rw [List.intercalate_cons_cons, List.mem_append, List.mem_append, List.mem_singleton] at member
      rcases member with (inside | slash) | later
      · exact .inr ⟨part, List.mem_cons_self, inside⟩
      · exact .inl slash
      · refine (ih later).imp_right fun found => ?_
        obtain ⟨piece, kept, inside⟩ := found
        exact ⟨piece, List.mem_cons_of_mem _ kept, inside⟩

theorem mem_resolvePath {path : List Char} {c : Char} (member : c ∈ resolvePath path) :
    c = '/' ∨ c ∈ path := by
  refine (mem_intercalate_slash member).imp_right fun found => ?_
  obtain ⟨part, kept, inside⟩ := found
  rcases mem_resolveParts kept with nothing | ⟨piece, _⟩
  · exact absurd nothing List.not_mem_nil
  · exact mem_of_mem_splitOn piece inside

def Rooted (path : List Char) : Prop := path = [] ∨ path.head? = some '/'

theorem resolveParts_cons_nil (rest : List (List Char)) :
    ∃ others, resolveParts [] ([] :: rest) = [] :: others := resolveParts_rooted [] rest

theorem splitOn_slash (rest : List Char) : splitOn '/' ('/' :: rest) = [] :: splitOn '/' rest := by
  simp [splitOn]

theorem rooted_resolvePath {path : List Char} (slash : path.head? = some '/') :
    Rooted (resolvePath path) := by
  obtain ⟨rest, rfl⟩ := List.head?_eq_some_iff.1 slash
  obtain ⟨others, resolved⟩ := resolveParts_cons_nil (splitOn '/' rest)
  rw [resolvePath, splitOn_slash, resolved]
  cases others with
  | nil => exact .inl rfl
  | cons second more =>
    rw [List.intercalate_cons_cons]
    exact .inr rfl

def DotFree (path : List Char) : Prop := ∀ part ∈ splitOn '/' path, ¬ IsDots part

instance (path : List Char) : Decidable (DotFree path) :=
  inferInstanceAs (Decidable (∀ part ∈ _, ¬ IsDots part))

theorem dotFree_append_slash {front back : List Char} :
    DotFree (front ++ '/' :: back) ↔ DotFree front ∧ DotFree back := by
  simp only [DotFree, splitOn_append, List.forall_mem_append]

theorem resolvePath_of_dotFree {path : List Char} (free : DotFree path) : resolvePath path = path := by
  rw [resolvePath, resolveParts_of_plain free]
  exact intercalate_splitOn '/' path

theorem dotFree_resolvePath {path : List Char} (slash : path.head? = some '/') : DotFree (resolvePath path) := by
  obtain ⟨rest, rfl⟩ := List.head?_eq_some_iff.1 slash
  obtain ⟨others, resolved⟩ := resolveParts_cons_nil (splitOn '/' rest)
  have kept : ∀ part ∈ [] :: others, '/' ∉ part ∧ ¬ IsDots part := by
    intro part member
    rw [← resolved] at member
    rcases mem_resolveParts member with nothing | ⟨piece, plain⟩
    · exact absurd nothing List.not_mem_nil
    · rw [← splitOn_slash] at piece
      exact ⟨notMem_of_mem_splitOn piece, plain⟩
  rw [DotFree, resolvePath, splitOn_slash, resolved,
    splitOn_intercalate (List.cons_ne_nil _ _) fun part member => (kept part member).1]
  exact fun part member => (kept part member).2

theorem resolvePath_resolvePath {path : List Char} (slash : path.head? = some '/') :
    resolvePath (resolvePath path) = resolvePath path :=
  resolvePath_of_dotFree (dotFree_resolvePath slash)

/-! An address is made of its parts one by one, so that a path can be put in the place of another. -/

theorem fitsBehind_rooted {path : List Char} (rooted : Rooted path) (hasAuthority : Bool) :
    fitsBehind true hasAuthority path = true := by
  rcases rooted with rfl | slash
  · simp [fitsBehind]
  · simp [fitsBehind, slash]

def hostOf? (authority : List Char) : Option (List Char) :=
  if (splitAuthority authority).2.1 = [] then some []
  else Hostname.normal? (splitAuthority authority).2.1

theorem ofParts?_eq {scheme : List Char} (typed : scheme ≠ []) (authority path : List Char)
    (query fragment : Option (List Char)) :
    ofParts? scheme authority path query fragment =
      (hostOf? authority).bind fun host =>
        (readPort? scheme (splitAuthority authority).2.2).bind fun port =>
          if fitsBehind true ((splitAuthority authority).1 != [] || host != [] || port.isSome) path then
            some {
              scheme := scheme.map Char.toLower
              userinfo := Percent.encode isUserinfoChar (splitAuthority authority).1
              host := host
              port := port
              path := Percent.encode isPathChar (resolvePath path)
              query := query.map (Percent.encode isQueryChar)
              fragment := fragment.map (Percent.encode isFragmentChar) }
          else none := by
  have hasScheme : (scheme != []) = true := by simpa using typed
  unfold ofParts? hostOf?
  by_cases noHost : (splitAuthority authority).2.1 = []
  · simp only [if_pos noHost, hasScheme, Bool.true_or, if_true]
    rfl
  · simp only [if_neg noHost, hasScheme, Bool.true_or, if_true]
    rfl

theorem ofParts?_path {scheme authority path path' : List Char} {query fragment : Option (List Char)}
    {u : Url} (formed : ofParts? scheme authority path query fragment = some u) (typed : scheme ≠ [])
    (rooted : Rooted path') (query' : Option (List Char)) :
    ofParts? scheme authority path' query' fragment =
      some { u with
        path := Percent.encode isPathChar (resolvePath path')
        query := query'.map (Percent.encode isQueryChar) } := by
  rw [ofParts?_eq typed] at formed ⊢
  obtain ⟨host, named, formed⟩ := Option.bind_eq_some_iff.1 formed
  obtain ⟨port, read, formed⟩ := Option.bind_eq_some_iff.1 formed
  obtain ⟨_, same⟩ := Option.ite_none_right_eq_some.1 formed
  obtain rfl := Option.some.inj same
  rw [named, Option.bind_some, read, Option.bind_some, if_pos (fitsBehind_rooted rooted _)]

theorem isPathChar_hexDigit : ∀ n < 16, isPathChar (Percent.hexDigit n) = true := by decide

theorem isPathChar_of_mem_encode {safe : Char → Bool}
    (ordinary : ∀ c, safe c = true → isPathChar c = true) {s : List Char} {c : Char}
    (member : c ∈ Percent.encode safe s) : isPathChar c = true := by
  rcases Percent.mem_encode member with ⟨-, kept⟩ | rfl | ⟨n, bound, rfl⟩
  · exact ordinary c kept
  · decide
  · exact isPathChar_hexDigit n bound

/-- A base that others are joined to: it has a scheme, a path from the root or none, and neither query
nor fragment, and it stays as it is when it is brought to normal form again. -/
structure IsBase (u : Url) : Prop where
  typed : u.scheme ≠ []
  rooted : Rooted u.path
  query : u.query = none
  fragment : u.fragment = none
  settled : u.withParts? u.path none = some u

structure IsReference (reference : List Char) : Prop where
  rooted : ∃ rest, reference = '/' :: rest ∧ rest.head? ≠ some '/'
  ordinary : ∀ c ∈ reference, isPathChar c = true

def front (u : Url) : List Char := if u.path = [] then ['/'] else u.path

def below (u : Url) (reference : List Char) : Url :=
  { u with
    path := Percent.encode isPathChar (resolvePath (u.front ++ reference.drop 1))
    query := none }

theorem target_eq_front {u : Url} (query : u.query = none) : u.target = u.front := by
  rw [target, query, mark, List.append_nil, front]

theorem front_ne_nil (u : Url) : u.front ≠ [] := by
  unfold front
  split
  · exact List.cons_ne_nil _ _
  · assumption

theorem IsBase.head?_front {u : Url} (base : u.IsBase) : u.front.head? = some '/' := by
  unfold front
  rcases base.rooted with empty | slash
  · rw [if_pos empty]
    rfl
  · split
    · rfl
    · exact slash

theorem IsBase.formed {u : Url} (base : u.IsBase) :
    ofParts? u.scheme u.authority u.path none none = some u ∧
      u.scheme.length ≤ maxLength ∧ u.authority.length ≤ maxLength := by
  have settled := base.settled
  unfold withParts? at settled
  rw [base.fragment] at settled
  obtain ⟨short, formed⟩ := Option.ite_none_right_eq_some.1 settled
  simp only [List.all_cons, Bool.and_eq_true, decide_eq_true_eq] at short
  exact ⟨formed, short.1, short.2.1⟩

theorem IsBase.withParts? {u : Url} (base : u.IsBase) (old : List Char) (oldQuery : Option (List Char))
    {path : List Char} (rooted : Rooted path) (short : path.length ≤ maxLength)
    (query : Option (List Char)) (shortQuery : (query.getD []).length ≤ maxLength) :
    ({ u with path := old, query := oldQuery } : Url).withParts? path query =
      some { u with
        path := Percent.encode isPathChar (resolvePath path)
        query := query.map (Percent.encode isQueryChar) } := by
  obtain ⟨formed, shortScheme, shortAuthority⟩ := base.formed
  have fits : [u.scheme, u.authority, path, query.getD [], u.fragment.getD []].all
      (fun part => part.length ≤ maxLength) = true := by
    simp [base.fragment, shortScheme, shortAuthority, short, shortQuery]
  have moved := ofParts?_path formed base.typed rooted query
  rw [← base.fragment] at moved
  exact (if_pos fits).trans moved

theorem withParts?_of_long (u : Url) {path : List Char} (long : maxLength < path.length)
    (query : Option (List Char)) : u.withParts? path query = none := by
  refine if_neg fun fits => ?_
  simp only [List.all_cons, Bool.and_eq_true, decide_eq_true_eq] at fits
  exact absurd fits.2.2.1 (Nat.not_le.2 long)

theorem IsBase.path_eq {u : Url} (base : u.IsBase) : u.path = Percent.encode isPathChar (resolvePath u.path) := by
  obtain ⟨formed, _, _⟩ := base.formed
  have same := ofParts?_path formed base.typed base.rooted none
  rw [formed] at same
  exact congrArg Url.path (Option.some.inj same)

theorem IsBase.path_ordinary {u : Url} (base : u.IsBase) : ∀ c ∈ u.path, isPathChar c = true := by
  intro c member
  rw [base.path_eq] at member
  exact isPathChar_of_mem_encode (fun _ ordinary => ordinary) member

theorem IsBase.resolvePath_path {u : Url} (base : u.IsBase) : resolvePath u.path = u.path := by
  have ordinary : ∀ c ∈ resolvePath u.path, isPathChar c = true := by
    intro c member
    rcases mem_resolvePath member with rfl | inside
    · decide
    · exact base.path_ordinary c inside
  exact (encode_of_safe ordinary).symm.trans base.path_eq.symm

theorem IsBase.dotFree_front {u : Url} (base : u.IsBase) : DotFree u.front := by
  unfold front
  split
  · decide
  · next some =>
    rw [← base.resolvePath_path]
    exact dotFree_resolvePath (base.rooted.resolve_left some)

theorem IsBase.front_ordinary {u : Url} (base : u.IsBase) : ∀ c ∈ u.front, isPathChar c = true := by
  unfold front
  split
  · exact List.forall_mem_singleton.2 (by decide)
  · exact base.path_ordinary

theorem cutAt_of_notMem {c : Char} {s : List Char} (absent : c ∉ s) : cutAt c s = (s, none) := by
  have whole : s.takeWhile (· != c) = s := List.takeWhile_eq_self_iff.2 fun d member => by
    simpa using fun same : d = c => absent (same ▸ member)
  have without : s.contains c = false := by simpa using absent
  rw [cutAt, whole, without]
  rfl

theorem notMem_of_ordinary {s : List Char} (ordinary : ∀ c ∈ s, isPathChar c = true) {c : Char}
    (other : isPathChar c = false) : c ∉ s := fun member =>
  absurd ((ordinary c member).symm.trans other) (by decide)

theorem ofText?_reference {reference : List Char} (isReference : IsReference reference) :
    ofText? reference =
      if reference.length ≤ maxLength then some ⟨[], [], [], none, reference, none, none⟩ else none := by
  obtain ⟨⟨rest, rfl, single⟩, ordinary⟩ := isReference
  have plain : ('/' :: rest).any isControl = false := by
    rw [List.any_eq_false]
    intro c member control
    have visible := ordinary c member
    simp only [isPathChar, isQueryChar, isControl, Bool.and_eq_true, Bool.or_eq_true, beq_iff_eq,
      decide_eq_true_eq] at visible control
    omega
  have noScheme : splitScheme ('/' :: rest) = ([], '/' :: rest) := by
    have first : isSchemeChar '/' = false := by decide
    simp [splitScheme, first]
  have noAuthority : splitSlashes ('/' :: rest) = ([], '/' :: rest) := by
    unfold splitSlashes
    split
    · next same =>
      injection same with _ behind
      rw [behind] at single
      exact absurd rfl single
    · rfl
  have noFragment := cutAt_of_notMem (notMem_of_ordinary ordinary (c := '#') (by decide))
  have noQuery := cutAt_of_notMem (notMem_of_ordinary ordinary (c := '?') (by decide))
  have formed : ofParts? [] [] ('/' :: rest) none none =
      some ⟨[], [], [], none, Percent.encode isPathChar ('/' :: rest), none, none⟩ := by
    have fits : fitsBehind false false ('/' :: rest) = true := by
      cases rest with
      | nil => rfl
      | cons c more =>
        have other : c ≠ '/' := fun same => single (congrArg some same)
        simp [fitsBehind, other]
    have host : (splitAuthority []).2.1 = [] := rfl
    have port : readPort? [] (splitAuthority []).2.2 = some none := rfl
    unfold ofParts?
    simp only [host, port, if_true]
    exact if_pos fits
  rw [encode_of_safe ordinary] at formed
  simp only [ofText?, plain, noScheme, noAuthority, noFragment, noQuery, formed]
  simp

theorem IsBase.path_below {u : Url} (base : u.IsBase) {reference : List Char}
    (isReference : IsReference reference) :
    (u.below reference).path = resolvePath (u.front ++ reference.drop 1) := by
  refine encode_of_safe fun c member => ?_
  rcases mem_resolvePath member with rfl | inside
  · decide
  · rcases List.mem_append.1 inside with old | new
    · exact base.front_ordinary c old
    · exact isReference.ordinary c (List.mem_of_mem_drop new)

/-- A reference names an address below the base unless the two of them are too long. -/
theorem IsBase.join? {u : Url} (base : u.IsBase) {reference : List Char}
    (isReference : IsReference reference) :
    u.join? reference =
      if u.front.length + reference.length ≤ maxLength + 1 then some (u.below reference) else none := by
  have target := target_eq_front base.query
  have room : 1 ≤ u.front.length := List.length_pos_iff.2 (front_ne_nil u)
  have read := ofText?_reference isReference
  obtain ⟨⟨rest, rfl, single⟩, ordinary⟩ := isReference
  have behind : ('/' :: rest).dropWhile (· == '/') = rest := by
    cases rest with
    | nil => rfl
    | cons c more =>
      have other : (c == '/') = false := by simpa using fun same : c = '/' => single (congrArg some same)
      simp [other]
  have joined : ∀ c ∈ u.front ++ rest, isPathChar c = true := by
    intro c member
    rcases List.mem_append.1 member with old | new
    · exact base.front_ordinary c old
    · exact ordinary c (List.mem_cons_of_mem _ new)
  have whole := cutAt_of_notMem (notMem_of_ordinary joined (c := '?') (by decide))
  have length : (u.front ++ rest).length = u.front.length + rest.length := List.length_append
  have asked : u.join? ('/' :: rest) =
      if ('/' :: rest).length ≤ maxLength then u.withParts? (u.front ++ rest) none else none := by
    have own : (⟨[], [], [], none, '/' :: rest, none, none⟩ : Url).target = '/' :: rest :=
      target_eq_front rfl
    unfold Url.join?
    rw [read]
    split
    · simp only [Option.bind_eq_bind, Option.bind_some, own, behind, target, withTarget?, whole]
    · rfl
  rw [asked]
  by_cases short : u.front.length + ('/' :: rest).length ≤ maxLength + 1
  · have fits : ('/' :: rest).length ≤ maxLength := by omega
    have bound : (u.front ++ rest).length ≤ maxLength := by
      rw [List.length_cons] at short
      omega
    have rooted : Rooted (u.front ++ rest) := by
      refine .inr ?_
      rw [List.head?_append, base.head?_front]
      rfl
    rw [if_pos short, if_pos fits]
    exact base.withParts? u.path u.query rooted bound none (Nat.zero_le _)
  · rw [if_neg short]
    split
    · refine withParts?_of_long u ?_ none
      rw [List.length_cons] at short
      omega
    · rfl

theorem IsBase.withQuery {u : Url} (base : u.IsBase) {reference : List Char}
    (isReference : IsReference reference)
    (short : u.front.length + reference.length ≤ maxLength + 1) {query : List Char}
    (shortQuery : query.length ≤ maxLength) (ordinary : ∀ c ∈ query, isQueryChar c = true) :
    (u.below reference).withParts? (u.below reference).path (some query) =
      some { u.below reference with query := some query } := by
  have path := base.path_below isReference
  obtain ⟨rest, rfl, _⟩ := isReference.rooted
  have slash : (u.front ++ ('/' :: rest).drop 1).head? = some '/' := by
    rw [List.head?_append, base.head?_front]
    rfl
  have bound : (resolvePath (u.front ++ ('/' :: rest).drop 1)).length ≤ maxLength := by
    have shorter := length_resolvePath_le (u.front ++ ('/' :: rest).drop 1)
    rw [List.length_append, List.length_drop, List.length_cons] at shorter
    rw [List.length_cons] at short
    omega
  have encoded : (some query).map (Percent.encode isQueryChar) = some query :=
    congrArg some (encode_of_safe ordinary)
  have moved := base.withParts? (u.below ('/' :: rest)).path none (rooted_resolvePath slash) bound
    (some query) shortQuery
  rw [resolvePath_resolvePath slash, encoded] at moved
  rw [path]
  exact moved

end Url

end CodeDeck.Http
