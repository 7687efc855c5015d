import CodeDeck.Path
import CodeDeck.Text.Lowercase

/-!
Programming languages, told by the extension of a file name. Case does not matter.
-/

namespace CodeDeck

open CodeDeck.Text

inductive Language where
  | typescript | javascript | python | rust | go | swift | kotlin
  | text
  deriving DecidableEq, Repr

namespace Language

def name : Language → String
  | typescript => "typescript"
  | javascript => "javascript"
  | python => "python"
  | rust => "rust"
  | go => "go"
  | swift => "swift"
  | kotlin => "kotlin"
  | text => "text"

def ofExtension? : String → Option Language
  | "ts" => some typescript
  | "tsx" => some typescript
  | "js" => some javascript
  | "jsx" => some javascript
  | "mjs" => some javascript
  | "cjs" => some javascript
  | "py" => some python
  | "rs" => some rust
  | "go" => some go
  | "swift" => some swift
  | "kt" => some kotlin
  | "kts" => some kotlin
  | _ => none

def ofPath (path : String) : Language :=
  match Path.extension? path.toList with
  | some extension => (ofExtension? (String.ofList (lower extension))).getD text
  | none => text

/-- A name of no known language stands for plain text. -/
def ofName : String → Language
  | "typescript" => typescript
  | "javascript" => javascript
  | "python" => python
  | "rust" => rust
  | "go" => go
  | "swift" => swift
  | "kotlin" => kotlin
  | _ => text

theorem ofName_name (l : Language) : ofName l.name = l := by cases l <;> rfl

end Language

end CodeDeck
