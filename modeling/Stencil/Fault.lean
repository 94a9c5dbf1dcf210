import Stencil.Path
import Stencil.Json.Reader
import Stencil.Text.Utf8
import Stencil.Schema.Issue

/-!
# Faults

Why an operation fails. Malformed templates are no faults: they degrade to text. What fails is the
access to files, the reading of records and assignments, and the writing of integers that are too
long.
-/

namespace Stencil

/-- Why an operation fails. -/
inductive Fault
  /-- No template file at a path. -/
  | templateMissing (path : Path)
  /-- The directory of a new project is there already. -/
  | projectExists (path : Path)
  /-- A block of a kind that there is not. -/
  | unknownKind (kind : Text)
  /-- An opening or closing tag to search for is empty. -/
  | emptyTag
  /-- An assignment without an equals sign. -/
  | missingEquals (assignment : Text)
  /-- An assignment without a key. -/
  | emptyKey (assignment : Text)
  /-- A context file that holds no mapping. -/
  | contextNotMapping (file : Text)
  /-- An integer that has too many digits to be written. -/
  | integerTooLong
  /-- A text that is no JSON. -/
  | notJson (whole : Text) (failure : Json.Failure)
  /-- Bytes that are no text. -/
  | notText (flaw : Utf8.Flaw)
  /-- A path that does not begin with the directory it should be seen from. -/
  | notBelow (path root : Path)
  /-- Nothing at a path. -/
  | missing (path : Path)
  /-- Something at a path already. -/
  | occupied (path : Path)
  /-- A directory where a file is expected. -/
  | isDirectory (path : Path)
  /-- A file where a directory is expected. -/
  | notDirectory (path : Path)
  /-- A path that is too long, or a name in it. -/
  | nameTooLong (path : Path)
  /-- A path with a null character. -/
  | nullCharacter
  /-- A cache for more trees than can be counted. -/
  | cacheTooLarge
  /-- A pattern of file names in which two stars are not a part of their own. -/
  | wrongPattern
  /-- Settings with issues. -/
  | invalid (model : Text) (issues : List Schema.Issue)
  /-- Features that are no mapping and no list of pairs. -/
  | notPairs
  /-- A list of pairs in which an item is no pair. -/
  | notPair

namespace Fault

/-- The message of a fault of the file system. -/
def system (number : Nat) (what : String) (path : Path) : Text :=
  "[Errno ".toList ++ Nat.toDigits 10 number ++ "] ".toList ++ what.toList ++ ": ".toList
    ++ Text.quoted path.text

/-- A fault in words. -/
def message : Fault → Text
  | templateMissing path => "Template file not found: ".toList ++ path.text
  | projectExists path => "Directory already exists: ".toList ++ path.text
  | unknownKind kind => Text.quoted kind
  | emptyTag => "open_tag and close_tag must be non-empty".toList
  | missingEquals assignment => "Expected KEY=VALUE, got: ".toList ++ assignment
  | emptyKey assignment => "Empty key in assignment: ".toList ++ assignment
  | contextNotMapping file => "Context file must hold a JSON object: ".toList ++ file
  | integerTooLong =>
    ("Exceeds the limit (4300 digits) for integer string conversion; "
      ++ "use sys.set_int_max_str_digits() to increase the limit").toList
  | notJson whole failure => failure.message whole
  | notText flaw => flaw.message
  | notBelow path root =>
    Text.quoted path.text ++ " is not in the subpath of ".toList ++ Text.quoted root.text
      ++ " OR one path is relative and the other is absolute.".toList
  | missing path => system 2 "No such file or directory" path
  | occupied path => system 17 "File exists" path
  | isDirectory path => system 21 "Is a directory" path
  | notDirectory path => system 20 "Not a directory" path
  | nameTooLong path => system 36 "File name too long" path
  | nullCharacter => "embedded null byte".toList
  | cacheTooLarge => "cannot fit 'int' into an index-sized integer".toList
  | wrongPattern => "Invalid pattern: '**' can only be an entire path component".toList
  | invalid model issues =>
    Nat.toDigits 10 issues.length ++ " validation error".toList
      ++ (if issues.length == 1 then [] else ['s']) ++ " for ".toList ++ model
  | notPairs => "not a mapping".toList
  | notPair => "not a pair".toList

end Fault

/-- An operation on a state that may fail; the state after a failure is the state at that point. -/
abbrev Action (σ α : Type) := ExceptT Fault (StateM σ) α

namespace Action

variable {σ τ α : Type}

/-- Runs an operation on a part of the state. -/
def zoom (get : σ → τ) (set : τ → σ → σ) (action : Action τ α) : Action σ α := fun s =>
  let (result, part) := action (get s)
  (result, set part s)

/-- An operation that reads the state and may fail. -/
def reading (f : σ → Except Fault α) : Action σ α := fun s => (f s, s)

/-- An operation that changes the state and may fail; the state stays if it does. -/
def changing (f : σ → Except Fault σ) : Action σ Unit := fun s =>
  match f s with
  | .ok changed => (.ok (), changed)
  | .error fault => (.error fault, s)

/-- The state after an operation that must not fail. -/
def stateAfter (action : Action σ α) (s : σ) : Except Fault σ :=
  let (result, after) := action s
  result.map fun _ => after

/-- Runs an operation from a state. -/
def runOn (action : Action σ α) (s : σ) : Except Fault α × σ := action s

end Action

end Stencil
