import CodeDeck.Json.Count

/-! Values in their plain reading: whole numbers as bounds and in their order, texts by comparison, and
fields with a default. A reading in steps succeeds when each of its steps does. -/

namespace CodeDeck

theorem ok_of_bind {ε α β : Type} {x : Except ε α} {f : α → Except ε β} {b : β}
    (bound : x >>= f = .ok b) : ∃ a, x = .ok a ∧ f a = .ok b := by
  cases x with
  | error fault => simp [bind, Except.bind] at bound
  | ok a => exact ⟨a, rfl, bound⟩

namespace Json

variable {v a b : Json} {m n : Int}

theorem asBound_of_whole? (whole : v.whole? = some n) : v.asBound = .ok (some n) := by
  cases v with
  | null => simp [whole?] at whole
  | _ => simp [asBound, asWhole, whole, Except.map]

theorem asWhole_of_whole? (whole : v.whole? = some n) : v.asWhole = .ok n := by
  simp [asWhole, whole]

theorem truthy_of_whole? (whole : v.whole? = some n) : v.truthy = (n != 0) := by
  cases v with
  | int m =>
    obtain rfl : m = n := Option.some.inj whole
    rfl
  | bool b =>
    obtain rfl := Option.some.inj whole
    cases b <;> rfl
  | _ => simp [whole?] at whole

theorem precedes_of_whole? (left : a.whole? = some m) (right : b.whole? = some n) :
    precedes a b = .ok (decide (m < n)) := by
  have first := asWhole_of_whole? left
  have second := asWhole_of_whole? right
  cases a <;> simp only [whole?, reduceCtorEq] at left <;>
    cases b <;> simp only [whole?, reduceCtorEq] at right <;>
    simp only [precedes, first, second, bind, Except.bind, pure, Except.pure]

theorem exceeds_of_whole? (left : a.whole? = some m) (right : b.whole? = some n) :
    exceeds a b = .ok (decide (n < m)) := precedes_of_whole? right left

theorem smaller_of_whole? (left : a.whole? = some m) (right : b.whole? = some n) :
    ∃ least, smaller a b = .ok least := by
  rw [smaller, precedes_of_whole? right left]
  exact ⟨_, rfl⟩

theorem same_str (s t : String) : same (.str s) (.str t) = decide (s = t) := by
  simp only [same, isKey_str, key_str, Bool.true_and]
  by_cases equal : s = t <;> simp [equal]

theorem same_str_iff {s : String} : v.same (.str s) = true ↔ v = .str s := by
  cases v with
  | str t => simp [same_str]
  | real x => cases whole : x.whole? <;> simp [same, key, whole]
  | arr items => simp [same, isKey, key]
  | obj fields => simp [same, isKey, key]
  | _ => simp [same, key]

def isObject : Json → Bool
  | obj _ => true
  | _ => false

theorem askOr_of_isObject (object : v.isObject = true) (name : String) (default : Json) :
    v.askOr name default = .ok ((v.field? name).getD default) := by
  cases v with
  | obj fields => rfl
  | _ => simp [isObject] at object

theorem isObject_of_field? {name : String} {held : Json} (found : v.field? name = some held) :
    v.isObject = true := by
  cases v with
  | obj fields => rfl
  | _ => simp [field?] at found

theorem require_of_field? {name : String} {held : Json} (found : v.field? name = some held) :
    v.require name = .ok held := by
  cases v with
  | obj fields =>
    have got : Assoc.get? name fields = some held := found
    simp [require, got]
  | _ => simp [field?] at found

theorem isObject_of_askOr {name : String} {default held : Json}
    (asked : v.askOr name default = .ok held) : v.isObject = true := by
  cases v with
  | obj fields => rfl
  | _ => simp [askOr, ask, Except.map] at asked

theorem eq_str_of_text? {s : String} (text : v.text? = some s) : v = .str s := by
  cases v with
  | str t => rw [Option.some.inj text]
  | _ => simp [text?] at text

def textIn? (name : String) (v : Json) : Option String := (v.field? name).bind text?

theorem field?_of_textIn? {name s : String} (told : v.textIn? name = some s) :
    v.field? name = some (.str s) := by
  obtain ⟨held, found, text⟩ := Option.bind_eq_some_iff.1 told
  rw [found, eq_str_of_text? text]

theorem same_field_iff {name s : String} :
    ((v.field? name).getD .null).same (.str s) = true ↔ v.textIn? name = some s := by
  rw [same_str_iff]
  refine ⟨fun same => ?_, fun told => by rw [field?_of_textIn? told, Option.getD_some]⟩
  cases found : v.field? name with
  | none => simp [found] at same
  | some held =>
    obtain rfl : held = .str s := by simpa [found] using same
    rw [textIn?, found]
    rfl

def items? : Json → Option (List Json)
  | arr items => some items
  | _ => none

theorem eq_arr_of_items? {items : List Json} (listed : v.items? = some items) : v = .arr items := by
  cases v with
  | arr others => rw [Option.some.inj listed]
  | _ => simp [items?] at listed

end Json

end CodeDeck
