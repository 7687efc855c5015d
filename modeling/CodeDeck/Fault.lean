import CodeDeck.Http.Fault
import CodeDeck.Json.Display
import CodeDeck.Text.Ascii
import CodeDeck.Text.Quoted

/-!
What can go wrong, by cause. `Fault.message` words a fault; `Fault.isReported` tells the faults that
the command line reports and survives from those that end it.
-/

namespace CodeDeck

open CodeDeck.Text

inductive ConfigProblem where
  | missingFile
  | missingSection (name : String)
  | apiUrl
  | databasePath
  | notPositive (setting : String)
  deriving DecidableEq, Repr

def ConfigProblem.message : ConfigProblem → String
  | missingFile => "config.json not found. Copy config.example.json to config.json."
  | missingSection name => "config.json missing required section '" ++ name ++ "'."
  | apiUrl => "config.json 'github.api_url' must be a URL starting with http."
  | databasePath => "config.json 'database.path' must be a string."
  | notPositive setting => "config.json '" ++ setting ++ "' must be a positive integer."

inductive Fault where
  | missingField (name : String)
  | unknownKind (shown : String)
  /-- A value of the kind stands where one with the named member is expected. -/
  | noMember (kind : Json.Kind) (member : String)
  | notNumeric (kind : Json.Kind)
  | wrongType
  | badNumeral (text : String)
  | tooManyDigits (count : Nat)
  | unwritableNumber
  /-- A surrogate stands alone in a text that has to be encoded. -/
  | loneSurrogate
  | infiniteNumber
  | undefinedNumber
  | unknownAction (shown : String)
  | zeroStep
  | invalidRepo (text : String)
  | config (problem : ConfigProblem)
  | noSupportedFiles
  | nothingLearnable
  | repoNotFound (owner repo : String) (cause : Http.Fault)
  | treeNotFound (owner repo branch : String) (cause : Http.Fault)
  | dateOutOfRange
  | malformedDate (text : String)
  | malformed (m : Json.Malformed)
  | invalidAddress
  | notAscii (problem : NotAscii)
  | outOfBounds
  | storeDown
  deriving DecidableEq, Repr

namespace Fault

/-- The wording without the cause in brackets behind it. -/
def headline : Fault → String
  | missingField name => quotedString name
  | unknownKind shown => shown
  | noMember kind member =>
    "'" ++ kind.label ++ "' object has no attribute '" ++ member ++ "'"
  | notNumeric kind =>
    "int() argument must be a string, a bytes-like object or a real number, not '"
      ++ kind.label ++ "'"
  | wrongType => "wrong type"
  | badNumeral text =>
    "invalid literal for int() with base 10: " ++ String.ofList ((quoted text.toList).take 200)
  | tooManyDigits count => Json.Problem.message (.tooManyDigits count)
  | unwritableNumber =>
    "Exceeds the limit (4300 digits) for integer string conversion; "
      ++ "use sys.set_int_max_str_digits() to increase the limit"
  | loneSurrogate => "surrogates not allowed"
  | infiniteNumber => "cannot convert float infinity to integer"
  | undefinedNumber => "cannot convert float NaN to integer"
  | unknownAction shown => shown ++ " is not a valid ReviewAction"
  | zeroStep => "range() arg 3 must not be zero"
  | invalidRepo text =>
    "Invalid repo format: '" ++ text ++ "'. Use owner/repo or a GitHub URL."
  | config problem => problem.message
  | noSupportedFiles => "No supported code files found in this repo."
  | nothingLearnable => "Couldn't extract any learnable code blocks."
  | repoNotFound owner repo _ => "Repo not found: " ++ owner ++ "/" ++ repo
  | treeNotFound owner repo branch _ =>
    "Failed to fetch tree for " ++ owner ++ "/" ++ repo ++ "@" ++ branch
  | dateOutOfRange => "date value out of range"
  | malformedDate text => "Invalid isoformat string: " ++ quotedString text
  | invalidAddress => "invalid address"
  | notAscii problem => problem.message
  | outOfBounds => "index out of range"
  | malformed m => m.message
  | storeDown => "store down"

def cause? : Fault → Option Http.Fault
  | repoNotFound _ _ cause => some cause
  | treeNotFound _ _ _ cause => some cause
  | _ => none

def message (f : Fault) : String :=
  match f.cause? with
  | some cause => f.headline ++ " (" ++ cause.message ++ ")"
  | none => f.headline

def isConfig : Fault → Bool
  | config _ => true
  | _ => false

/-- A fault of the input or of the service; the others are faults of stored data. -/
def isReported : Fault → Bool
  | badNumeral _ => true
  | tooManyDigits _ => true
  | unwritableNumber => true
  | loneSurrogate => true
  | notAscii _ => true
  | malformedDate _ => true
  | undefinedNumber => true
  | unknownAction _ => true
  | zeroStep => true
  | invalidRepo _ => true
  | config _ => true
  | noSupportedFiles => true
  | nothingLearnable => true
  | repoNotFound _ _ _ => true
  | treeNotFound _ _ _ _ => true
  | malformed _ => true
  | _ => false

end Fault

end CodeDeck
