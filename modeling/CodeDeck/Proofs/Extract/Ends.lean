import CodeDeck.Proofs.Extract.Stands

/-! Functions, bindings and classes: their blocks end within their own texts. -/

namespace CodeDeck.Extract.Curly

open CodeDeck.Text CodeDeck.Pattern CodeDeck.Scan

/-! Classes. -/

theorem isPlain_of_word_or_blank {c : Char} (kind : isWord c = true ∨ isBlank c = true) : isPlain c = true := by
  have signs : ∀ c ∈ '=' :: '(' :: '<' :: '[' :: '\x7b' :: ')' :: '>' :: ']' :: '\x7d' :: defaultQuotes,
      isWord c = false ∧ isBlank c = false := by decide
  rw [isPlain, decide_eq_true_iff]
  intro member
  obtain ⟨word, blank⟩ := signs c member
  rw [word, blank] at kind
  exact kind.elim Bool.false_ne_true Bool.false_ne_true

theorem annotatedBrace_in_or_behind {ts : List TypeToken} (formed : ∀ t ∈ ts, t.WellFormed) (previous : List Char)
    (i : Nat) (rest : List Char) :
    (∃ a b, typeText ts = a ++ '\x7b' :: b ∧
      annotatedBrace defaultQuotes .code previous 0 i (typeText ts ++ rest) = some (i + a.length)) ∨
    annotatedBrace defaultQuotes .code previous 0 i (typeText ts ++ rest) =
      annotatedBrace defaultQuotes .code (signBehind previous ts) 0 (i + (typeText ts).length) rest := by
  refine (annotatedBrace_typeText formed previous i rest).imp_left ?_
  rintro ⟨front, inside, back, rfl, _, stops⟩
  exact ⟨typeText front, inside ++ '\x7d' :: typeText back, by simp [typeText, TypeToken.text, Bracket.opening,
    Bracket.closing], stops⟩

/-- In front of a body it stops in the type or at the body. -/
theorem exists_annotatedBrace_body {ts : List TypeToken} (formed : ∀ t ∈ ts, t.WellFormed) {previous : List Char}
    (settled : signBehind previous ts ∉ typeLeaders) (i : Nat) (inside after : List Char) :
    ∃ a b, typeText ts ++ '\x7b' :: inside = a ++ '\x7b' :: b ∧
      annotatedBrace defaultQuotes .code previous 0 i (typeText ts ++ '\x7b' :: (inside ++ after)) =
        some (i + a.length) := by
  rcases annotatedBrace_in_or_behind formed previous i ('\x7b' :: (inside ++ after)) with
    ⟨a, b, same, stops⟩ | passes
  · exact ⟨a, b ++ '\x7b' :: inside, by rw [same, List.append_assoc, List.cons_append], stops⟩
  · refine ⟨typeText ts, inside, rfl, ?_⟩
    rw [passes]
    exact annotatedBrace_body (by decide) ⟨rfl, rfl, settled⟩

theorem exists_tokens_behind {ts : List TypeToken} {body taken rest : List Char} (formed : ∀ t ∈ ts, t.WellFormed)
    (plain : ∀ c ∈ taken, isPlain c = true) (same : typeText ts ++ '\x7b' :: body = taken ++ rest) :
    ∃ more, ts = taken.map TypeToken.plain ++ more ∧ rest = typeText more ++ '\x7b' :: body := by
  induction taken generalizing ts with
  | nil => exact ⟨ts, rfl, same.symm⟩
  | cons c others ih =>
    obtain ⟨free, plain'⟩ := List.forall_mem_cons.1 plain
    obtain ⟨noEquals, noBracket, unquoted⟩ := isPlain_iff.1 free
    cases ts with
    | nil =>
      obtain rfl : '\x7b' = c := (List.cons.inj same).1
      contradiction
    | cons t more =>
      obtain ⟨first, formed'⟩ := List.forall_mem_cons.1 formed
      cases t with
      | plain d =>
        obtain ⟨rfl, behind⟩ := List.cons.inj same
        obtain ⟨left, rfl, reached⟩ := ih formed' plain' behind
        exact ⟨left, rfl, reached⟩
      | literal quote inside =>
        obtain rfl : quote = c := (List.cons.inj same).1
        exact absurd first.1 unquoted
      | arrow =>
        obtain rfl : '=' = c := (List.cons.inj same).1
        exact absurd rfl noEquals
      | group bracket inside =>
        obtain rfl : bracket.opening = c := (List.cons.inj same).1
        have opens := bracket.opening_mem
        simp only [List.mem_cons, List.not_mem_nil, or_false] at opens noBracket
        tauto

theorem typeText_plain (taken : List Char) (more : List TypeToken) :
    typeText (taken.map TypeToken.plain ++ more) = taken ++ typeText more := by
  induction taken with
  | nil => rfl
  | cons c others ih => exact congrArg (c :: ·) ih

theorem lastToken?_append (ts us : List TypeToken) : lastToken? (ts ++ us) = (lastToken? us).or (lastToken? ts) := by
  rw [lastToken?, List.filter_append, List.getLast?_append]
  rfl

theorem Settled.of_suffix {ts us : List TypeToken} (settled : Settled (ts ++ us)) : Settled us := by
  intro last found
  apply settled last
  rw [lastToken?_append, found]
  rfl

theorem signBehind_of_gaps {ts : List TypeToken} (gaps : lastToken? ts = none) (previous : List Char) :
    signBehind previous ts = previous := by
  rw [lastToken?, List.getLast?_eq_none_iff, List.filter_eq_nil_iff] at gaps
  induction ts with
  | nil => rfl
  | cons t more ih =>
    obtain ⟨first, others⟩ := List.forall_mem_cons.1 gaps
    cases t with
    | plain c =>
      have blank : isBlank c = true := by simpa [TypeToken.isGap] using first
      have same : TypeToken.sign previous (.plain c) = previous := if_pos blank
      rw [signBehind, List.foldl_cons, same]
      exact ih others
    | _ => simp [TypeToken.isGap] at first

/-- Behind a type whose last token leads to no object, a brace opens a body. -/
theorem Settled.sign {ts : List TypeToken} (settled : Settled ts) (formed : ∀ t ∈ ts, t.WellFormed)
    {previous : List Char} (plain : previous ∉ typeLeaders) : signBehind previous ts ∉ typeLeaders := by
  cases found : lastToken? ts with
  | none => rwa [signBehind_of_gaps found]
  | some last =>
    rw [signBehind_mem_typeLeaders_iff formed found, settled last found]
    exact Bool.false_ne_true

theorem Stands.exists_classBrace {source before gap later inside : List Char} {heading : List TypeToken}
    (stands : Stands source before (.concept heading inside) gap later) {limit : Nat} {previous : Option Char}
    {m : Found} (matched : matchAt? classHead limit
      ⟨before.length, previous, (Shape.concept heading inside).text ++ (gap ++ later), []⟩ = some m) :
    ∃ last a b, (m.get 1).getLast? = some last ∧ (Shape.concept heading inside).text = a ++ '\x7b' :: b ∧
      annotatedBodyBrace? source m.stop [last] defaultQuotes = some (before.length + a.length) := by
  cases stands.formed.complete with
  | concept formed settled =>
    obtain ⟨lead, name, behind, same, named, nonempty, word, words, stop⟩ := classHead_parts matched
    have here : m.stop = before.length + (lead ++ name).length := stop
    have final : name.getLast? = some (name.getLast nonempty) := List.getLast?_eq_some_getLast nonempty
    have plain : ∀ c ∈ lead ++ name, isPlain c = true :=
      List.forall_mem_append.2 ⟨fun c member => isPlain_of_word_or_blank (words c member),
        fun c member => isPlain_of_word_or_blank (.inl (word c member))⟩
    have split : typeText heading ++ '\x7b' :: (inside ++ '\x7d' :: (gap ++ later)) = (lead ++ name) ++ behind := by
      rw [List.append_assoc, ← same]
      simp [Shape.text]
    obtain ⟨more, tokens, reached⟩ := exists_tokens_behind formed plain split
    have formed' : ∀ t ∈ more, t.WellFormed := fun t member =>
      formed t (tokens ▸ List.mem_append_right _ member)
    have sign : signBehind [name.getLast nonempty] more ∉ typeLeaders :=
      (tokens ▸ settled : Settled (_ ++ more)).of_suffix.sign formed'
        (notMem_typeLeaders (word _ (List.getLast_mem nonempty)))
    have text : (Shape.concept heading inside).text =
        (lead ++ name) ++ (typeText more ++ '\x7b' :: (inside ++ ['\x7d'])) := by
      rw [Shape.text, tokens, typeText_plain, List.append_assoc]
    have ahead : source.drop m.stop = typeText more ++ '\x7b' :: (inside ++ ['\x7d'] ++ (gap ++ later)) := by
      rw [here, ← List.drop_drop, stands.drop, text, List.append_assoc, List.drop_left, List.append_assoc]
      rfl
    obtain ⟨a, b, opens, stops⟩ := exists_annotatedBrace_body formed' sign m.stop (inside ++ ['\x7d']) (gap ++ later)
    rw [opens, ← List.append_assoc] at text
    refine ⟨_, _, _, by rw [named, final], text, ?_⟩
    rw [annotatedBodyBrace?, ahead, stops, here, Nat.add_assoc, ← List.length_append]

theorem classHead_spares : Spares classHead classBlock? := by
  intro file before gap later d limit previous m b stands matched made
  obtain ⟨_, rest, ahead, takes, start, _⟩ := exists_taken_of_matchAt? matched
  obtain ⟨key, found, keyed⟩ := stands.keyword
  have own : keyword? (d.text ++ (gap ++ later)) = some "class".toList :=
    classHead_keyword ⟨_, ⟨rest, ahead.symm⟩, takes⟩
  obtain rfl : key = "class".toList := Option.some.inj (found.symm.trans own)
  obtain ⟨heading, inside, rfl⟩ := Shape.concept_of_keyed keyed
  obtain ⟨last, a, b', final, opens, body⟩ := stands.exists_classBrace matched
  obtain ⟨code, block, own⟩ := stands.braceBlock?_unit opens rfl
  simp only [classBlock?, Option.bind_eq_bind, final, Option.bind_some, body, show m.start = before.length from start,
    block] at made
  exact own.code_starts stands made

/-! Functions. -/

section Function

variable {source before gap later front types parameters : List Char} {result : List TypeToken} {ending : Ending}

theorem Stands.closingParen?
    (stands : Stands source before (.function front types parameters result ending) gap later) {limit : Nat}
    {previous : Option Char} {m : Found} (matched : matchAt? functionHead limit
      ⟨before.length, previous, (Shape.function front types parameters result ending).text ++ (gap ++ later), []⟩ =
        some m) :
    ∃ head, (Shape.function front types parameters result ending).text = head ++ (typeText result ++ ending.text) ∧
      source.drop (before.length + head.length) = typeText result ++ (ending.text ++ (gap ++ later)) ∧
      closingParen? source (m.stop - 1) defaultQuotes = some (before.length + head.length) := by
  obtain ⟨taken, rest, ahead, takes, _, stop⟩ := exists_taken_of_matchAt? matched
  cases stands.formed.complete with
  | function plain angle balanced formed settled =>
    have split : taken ++ rest = front ++ (types ++ '(' ::
        (parameters ++ ')' :: (typeText result ++ ending.text) ++ (gap ++ later))) := by
      rw [← show _ = taken ++ rest from ahead]
      simp [Shape.text]
    obtain rfl := functionHead_eq plain angle stands.legible.2 takes split
    have text : (Shape.function front types parameters result ending).text =
        front ++ (types ++ '(' :: (parameters ++ [')'])) ++ (typeText result ++ ending.text) := by simp [Shape.text]
    refine ⟨_, text, ?_, ?_⟩
    · rw [← List.drop_drop, stands.drop, text, List.append_assoc, List.drop_left, List.append_assoc]
    have found := closingParen?_balanced balanced (before ++ (front ++ types))
      (typeText result ++ ending.text ++ (gap ++ later))
    have whole : source = before ++ (front ++ types) ++ '(' ::
        (parameters ++ ')' :: (typeText result ++ ending.text ++ (gap ++ later))) := by
      rw [stands.same]
      simp [Shape.text]
    have offset : m.stop - 1 = (before ++ (front ++ types)).length := by
      rw [show m.stop = before.length + (front ++ (types ++ ['('])).length from stop]
      simp only [List.length_append, List.length_singleton]
      omega
    rw [offset, whole, found]
    congr 1
    simp only [List.length_append, List.length_cons, List.length_nil]
    omega

theorem annotatedBrace_gap {s : List Char} (blank : ∀ c ∈ s, isBlank c = true) (previous : List Char) (depth : Int)
    (i : Nat) : annotatedBrace defaultQuotes .code previous depth i s = none := by
  induction s generalizing i with
  | nil => rfl
  | cons c more ih =>
    obtain ⟨first, others⟩ := List.forall_mem_cons.1 blank
    obtain ⟨_, noBracket, unquoted⟩ := isPlain_iff.1 (isPlain_of_word_or_blank (.inr first))
    rw [annotatedBrace_plain unquoted noBracket]
    split
    · rfl
    · exact ih others (i + 1)

theorem Stands.annotatedBrace_eq_none
    (stands : Stands source before (.function front types parameters result ending) gap later)
    (bodiless : ∀ inside, ending ≠ .body inside) (previous : List Char) (i : Nat) :
    annotatedBrace defaultQuotes .code previous 0 i (ending.text ++ (gap ++ later)) = none := by
  cases ending with
  | body inside => exact absurd rfl (bodiless inside)
  | semicolon =>
    show annotatedBrace defaultQuotes .code previous 0 i (';' :: (gap ++ later)) = none
    rw [annotatedBrace_plain (by decide) (by decide), if_pos ⟨rfl, Int.le_refl 0⟩]
  | newline =>
    rcases stands.next with rfl | ⟨_, _, told⟩
    · show annotatedBrace defaultQuotes .code previous 0 i (gap ++ []) = none
      rw [List.append_nil]
      exact annotatedBrace_gap stands.blank previous 0 i
    · exact absurd rfl told

end Function

theorem functionHead_spares : Spares functionHead functionBlock? := by
  intro file before gap later d limit previous m b stands matched made
  obtain ⟨_, rest, ahead, takes, start, _⟩ := exists_taken_of_matchAt? matched
  obtain ⟨key, found, keyed⟩ := stands.keyword
  obtain ⟨key', own, function⟩ := functionHead_keyword ⟨_, ⟨rest, ahead.symm⟩, takes⟩
  obtain rfl : key = key' := Option.some.inj (found.symm.trans own)
  obtain ⟨front, types, parameters, result, ending, rfl⟩ := Shape.function_of_keyed keyed function
  obtain ⟨head, text, here, closed⟩ := stands.closingParen? matched
  cases stands.formed.complete with
  | function plain angle balanced formed settled =>
    have brace : (∃ a b, (Shape.function front types parameters result ending).text = (head ++ a) ++ '\x7b' :: b ∧
          annotatedBodyBrace? file.source (before.length + head.length) [')'] defaultQuotes =
            some (before.length + head.length + a.length)) ∨
        annotatedBodyBrace? file.source (before.length + head.length) [')'] defaultQuotes = none := by
      rw [annotatedBodyBrace?, here, text]
      by_cases braced : ∃ inside, ending = .body inside
      · obtain ⟨inside, rfl⟩ := braced
        obtain ⟨a, b, opens, body⟩ := exists_annotatedBrace_body formed
          ((settled inside rfl).sign formed (by decide : [')'] ∉ typeLeaders)) (before.length + head.length)
          (inside ++ ['\x7d']) (gap ++ later)
        exact .inl ⟨a, b, by rw [List.append_assoc, ← opens]; rfl, body⟩
      · rcases annotatedBrace_in_or_behind formed [')'] (before.length + head.length)
          (ending.text ++ (gap ++ later)) with ⟨a, b, opens, stops⟩ | passes
        · exact .inl ⟨a, b ++ ending.text, by rw [opens]; simp only [List.append_assoc, List.cons_append], stops⟩
        · rw [passes, stands.annotatedBrace_eq_none (not_exists.1 braced)]
          exact .inr rfl
    rcases brace with ⟨a, b', opens, body⟩ | none
    · have offset : before.length + head.length + a.length = before.length + (head ++ a).length := by
        rw [List.length_append, Nat.add_assoc]
      obtain ⟨code, block, own⟩ := stands.braceBlock?_unit opens offset
      simp only [functionBlock?, Option.bind_eq_bind, closed, Option.bind_some, body,
        show m.start = before.length from start, block] at made
      exact own.code_starts stands made
    · simp only [functionBlock?, Option.bind_eq_bind, closed, Option.bind_some, none, Option.bind_none] at made
      contradiction

theorem functionBlock?_eq_none {file : File} {before gap later front types parameters : List Char}
    {result : List TypeToken} {ending : Ending}
    (stands : Stands file.source before (.function front types parameters result ending) gap later)
    (bodiless : ∀ inside, ending ≠ .body inside) (led : Led result) {limit : Nat} {previous : Option Char} {m : Found}
    (matched : matchAt? functionHead limit
      ⟨before.length, previous, (Shape.function front types parameters result ending).text ++ (gap ++ later), []⟩ =
        some m) : functionBlock? file m = none := by
  obtain ⟨head, text, here, closed⟩ := stands.closingParen? matched
  cases stands.formed.complete with
  | function plain angle balanced formed settled =>
    have none : annotatedBodyBrace? file.source (before.length + head.length) [')'] defaultQuotes = none := by
      rw [annotatedBodyBrace?, here, annotatedBrace_led formed led, stands.annotatedBrace_eq_none bodiless]
    simp only [functionBlock?, Option.bind_eq_bind, closed, Option.bind_some, none, Option.bind_none]

/-! Bindings. -/

section Binding

variable {source before gap later : List Char} {d : Shape}

theorem Stands.exists_brace (stands : Stands source before d gap later) {more : List Char}
    (first : (trimStart (more ++ (gap ++ later))).head? = some '\x7b') :
    ∃ front b, more = front ++ '\x7b' :: b ∧ ∀ c ∈ front, isBlank c = true := by
  cases blank : allBlank more with
  | false =>
    rw [head?_trimStart_append blank] at first
    obtain ⟨b, same⟩ := List.head?_eq_some_iff.1 first
    refine ⟨more.takeWhile isBlank, b, ?_, fun c member => List.mem_takeWhile_imp member⟩
    exact List.takeWhile_append_dropWhile.symm.trans (congrArg (_ ++ ·) same)
  | true =>
    rw [trimStart, List.dropWhile_append_of_pos (List.all_eq_true.1 blank),
      List.dropWhile_append_of_pos stands.blank] at first
    rcases stands.next with rfl | ⟨_, ⟨rest, rfl⟩, _⟩
    · contradiction
    · exact absurd (Option.some.inj first) (by decide)

theorem Stands.arrowEnd_le_of_braced (stands : Stands source before d gap later) {taken more : List Char}
    (text : d.text = taken ++ more) (braced : Braced source (before.length + taken.length)) (start : Nat) :
    arrowEnd source start (before.length + taken.length) ≤ before.length + d.text.length := by
  have here : source.drop (before.length + taken.length) = more ++ (gap ++ later) := by
    rw [← List.drop_drop, stands.drop, text, List.append_assoc, List.drop_left]
  have first := ((braced_iff 0).1 braced).1
  rw [here] at first
  obtain ⟨front, b, rfl, blank⟩ := stands.exists_brace first
  have opens : d.text = (taken ++ front) ++ '\x7b' :: b := by rw [text, List.append_assoc]
  obtain ⟨inside, rest, rfl, balanced⟩ := stands.formed.balanced.exists_unit stands.bare opens
  have split : source.drop (before.length + taken.length) =
      front ++ '\x7b' :: (inside ++ '\x7d' :: (rest ++ (gap ++ later))) := by
    rw [here]
    simp
  have length : d.text.length = taken.length + front.length + inside.length + 2 + rest.length := by
    rw [opens]
    simp only [List.length_append, List.length_cons]
    omega
  rw [arrowEnd_of_braced split blank balanced, length]
  cases rest with
  | nil =>
    have none : (([] : List Char) ++ (gap ++ later)).head? ≠ some ';' := by
      intro sign
      exact absurd (stands.blank_behind ';' sign) (by decide)
    rw [if_neg none, List.length_nil]
    omega
  | cons c others =>
    rw [List.length_cons]
    split <;> omega

theorem Stands.arrowEnd_le_of_break (stands : Stands source before d gap later) {arrowStop i kept : Nat}
    (unbraced : ¬ Braced source arrowStop) (breaks : Break ((d.text ++ (gap ++ later)).drop i) kept) :
    arrowEnd source before.length arrowStop ≤ before.length + (i + kept) := by
  rw [← stands.drop, List.drop_drop] at breaks
  obtain ⟨stop, first, bound⟩ := exists_breaksFirst (Nat.le_add_right ..) breaks
  rw [arrowEnd_of_not_braced unbraced, arrowBreakFrom?_drop_iff.2 first, Option.getD_some]
  omega

theorem Stands.exists_break (stands : Stands source before d gap later) (next : "export ".toList <+: later)
    (ends : "\n\n".toList <:+ gap ∨ d.text.getLast? = some ';' ∧ "\n\n".toList <+: gap) :
    ∃ i kept, Break ((d.text ++ (gap ++ later)).drop i) kept ∧ i + kept ≤ d.text.length + gap.length := by
  rcases ends with ⟨front, rfl⟩ | ⟨semicolon, rest, rfl⟩
  · obtain ⟨rest, rfl⟩ := next
    refine ⟨(d.text ++ front).length, 0, ?_, ?_⟩
    · have split : d.text ++ (front ++ "\n\n".toList ++ ("export ".toList ++ rest)) =
          (d.text ++ front) ++ ("\n\nexport".toList ++ ' ' :: rest) := by simp
      rw [split, List.drop_left]
      exact .declaration (by decide) (by decide) rest
    · simp only [List.length_append]
      omega
  · obtain ⟨front, text⟩ := List.getLast?_eq_some_iff.1 semicolon
    refine ⟨front.length, 1, ?_, ?_⟩
    · rw [text, List.append_assoc, List.drop_left]
      exact .statement (rest ++ later)
    · rw [text, List.length_append, List.length_singleton]
      omega

/-- The head of a binding is in the binding; without another arrow among the inputs, just its body is behind it. -/
theorem Stands.exists_behind_head {front inputs body taken rest : List Char}
    (stands : Stands source before (.arrow front inputs body) gap later) (takes : arrowHead.Takes taken)
    (ahead : (Shape.arrow front inputs body).text ++ (gap ++ later) = taken ++ rest) :
    ∃ more, (Shape.arrow front inputs body).text = taken ++ more ∧ (¬ "=>".toList <:+: inputs → more = body) := by
  cases stands.formed.complete with
  | @typed front type _ _ bound =>
    have typed : taken ++ rest = front ++ '=' :: '>' :: (type ++ '=' :: (inputs ++ '=' :: '>' :: body) ++ (gap ++ later)) := by
      rw [← ahead]
      simp [Shape.text]
    exact (not_arrowHead_typed bound takes typed).elim
  | arrow bound round angle =>
    have split : taken ++ rest = front ++ '=' :: (inputs ++ '=' :: '>' :: (body ++ (gap ++ later))) := by
      rw [← ahead]
      simp [Shape.text]
    obtain ⟨used, left, rfl, rfl, tip⟩ := arrowHead_eq bound round angle takes split
    rcases tip with rfl | ⟨left, rfl⟩
    · exact ⟨body, by simp [Shape.text], fun _ => rfl⟩
    · refine ⟨left ++ '=' :: '>' :: body, by simp [Shape.text], fun single => absurd ?_ single⟩
      exact ⟨used, left, by simp⟩

end Binding

theorem arrowHead_spares : Spares arrowHead arrowBlock? := by
  intro file before gap later d limit previous m b stands matched made
  obtain ⟨taken, rest, ahead, takes, start, stop⟩ := exists_taken_of_matchAt? matched
  obtain ⟨key, found, keyed⟩ := stands.keyword
  have own : keyword? (d.text ++ (gap ++ later)) = some "const".toList :=
    arrowHead_keyword ⟨_, ⟨rest, ahead.symm⟩, takes⟩
  obtain rfl : key = "const".toList := Option.some.inj (found.symm.trans own)
  obtain ⟨front, inputs, body, rfl⟩ := Shape.arrow_of_keyed keyed
  have first : m.start = before.length := start
  have last : m.stop = before.length + taken.length := stop
  have code : IsOwn (.arrow front inputs body) gap later
      (slice file.source before.length (arrowEnd file.source before.length (before.length + taken.length))) := by
    refine ⟨arrowEnd file.source before.length (before.length + taken.length) - before.length, ?_, ?_⟩
    · rw [slice, stands.drop]
    obtain ⟨more, text, plain⟩ := stands.exists_behind_head takes ahead
    by_cases braced : Braced file.source (before.length + taken.length)
    · have bound := stands.arrowEnd_le_of_braced text braced before.length
      exact .inl (by omega)
    rcases stands.next with last | ⟨_, next, block | ends⟩
    · exact .inr last
    · obtain ⟨⟨front', inside, rest', same, blank, balanced⟩, single⟩ := block
      rw [plain single] at text
      refine absurd ⟨front', inside, rest' ++ (gap ++ later), ?_, blank, balanced⟩ braced
      rw [← List.drop_drop, stands.drop, text, List.append_assoc, List.drop_left, show body = _ from same]
      simp
    · obtain ⟨i, kept, breaks, near⟩ := stands.exists_break next ends
      have bound := stands.arrowEnd_le_of_break braced breaks
      exact .inl (by omega)
  rw [arrowBlock?, first, last] at made
  exact code.code_starts stands made

end CodeDeck.Extract.Curly
