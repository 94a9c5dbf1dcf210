import Stencil.Schema.Checked
import Stencil.Path
import Stencil.Text.Word
import Stencil.Json.Reader

/-!
# Fields

How the fields of settings are read from values. The rules are those of the validation library with
which the settings are declared, in its usual mode. It is lenient where no meaning is lost: words
and the numbers zero and one are truth values, and whole numbers may be written in text or with a
point.
-/

namespace Stencil.Schema

/-- Whole numbers of 64 bits are less than this and not less than its negative. -/
def wordBound : Int := 0x8000000000000000

/-- Reads a truth value: the numbers zero and one, or one of the usual words in small or large
letters. -/
def readBool : Value → Checked Bool
  | .bool b => .valid b
  | .int n =>
    if n == 0 then .valid false
    else if n == 1 then .valid true
    else if -wordBound ≤ n ∧ n < wordBound then .refuse .boolParsing
    else .refuse .boolType
  | .float x =>
    match Decimal.integer? x with
    | some n =>
      if n == 0 then .valid false
      else if n == 1 then .valid true
      else if -wordBound < n ∧ n < wordBound then .refuse .boolParsing
      else .refuse .boolType
    | none => .refuse .boolType
  | .text s =>
    let word := String.ofList (Text.lowerAscii s)
    if ["0", "off", "f", "false", "n", "no"].contains word then .valid false
    else if ["1", "on", "t", "true", "y", "yes"].contains word then .valid true
    else .refuse .boolParsing
  | _ => .refuse .boolType

/-- Reads a text. -/
def readText : Value → Checked Text
  | .text s => .valid s
  | _ => .refuse .stringType

/-- Reads a path. -/
def readPath : Value → Checked Path
  | .text s => .valid (.ofText s)
  | _ => .refuse .pathType

/-- Reads one of several choices by its name. -/
def readChoice {α : Type} (choices : List (Text × α)) : Value → Checked α
  | .text s =>
    match choices.lookup s with
    | some a => .valid a
    | none => .refuse .literalError
  | _ => .refuse .literalError

/-- Reads one of several choices, or null for none of them. -/
def readOptionalChoice {α : Type} (choices : List (Text × α)) : Value → Checked (Option α)
  | .null => .valid none
  | value => some <$> readChoice choices value

/-- Blanks around a number in text: all but the separators U+001C to U+001F. -/
def isNumberBlank (c : Char) : Bool := Text.isBlank c && !(28 ≤ c.toNat && c.toNat ≤ 31)

/-- Whether a character is one of the digits from one to nine. -/
def isCountingDigit (c : Char) : Bool := c.isDigit && c != '0'

/-- A whole number in text: a minus sign or none, and digits, of which the first is a zero only if it
is alone. If there are too many of them, it does not matter what follows. -/
def readNumeral (s : Text) : Except Complaint Int :=
  let unsigned := Json.unsigned s
  let digits := unsigned.takeWhile Char.isDigit
  let size := s.length - unsigned.length + digits.length
  let isPlain := digits.head?.any isCountingDigit
  if isPlain && digitLimit < size then .error .intParsingSize
  else if digits.length == unsigned.length && (isPlain || digits == ['0']) then
    let n : Int := Json.digitsValue digits
    .ok (if s.head? == some '-' then -n else n)
  else .error .intParsing

/-- What is left of a number behind zeros and the underscores among them, of which `last` is the
latest. It stays in front of a point and at the end; else what follows must begin a number. -/
def afterZeros? (last : Char) : Text → Option Text
  | [] => some [last]
  | c :: rest =>
    if c == '0' || c == '_' then afterZeros? c rest
    else if isCountingDigit c || c == '-' then some (c :: rest)
    else if c == '.' then some (last :: c :: rest)
    else none

/-- A number without the zeros at its front that say nothing. -/
def withoutZeros? : Text → Option Text
  | [] => none
  | c :: rest =>
    if c == '0' then afterZeros? c rest
    else if isCountingDigit c then some (c :: rest)
    else none

/-- A number without a point and the zeros behind it; other digits must not stand there. -/
def withoutPoint? (s : Text) : Option Text :=
  match s.dropWhile (· != '.') with
  | [] => some s
  | _ :: places =>
    if !places.isEmpty && places.all (· == '0') then some (s.takeWhile (· != '.')) else none

/-- A number without underscores, of which each must stand alone between other characters. -/
def withoutUnderscores (s : Text) : Text :=
  if (s.splitOn '_').any List.isEmpty then s else s.filter (· != '_')

/-- A number in text in its plain form: without blanks around it, a plus sign, zeros at its front or
behind its point, and underscores. -/
def plainNumeral? (s : Text) : Option Text := do
  let signed ←
    match Text.trim isNumberBlank s with
    | '+' :: '-' :: _ => none
    | '+' :: rest => some rest
    | rest => some rest
  let whole ← withoutPoint? (← withoutZeros? (Json.unsigned signed))
  let digits := withoutUnderscores whole
  return if signed.head? == some '-' then '-' :: digits else digits

/-- Reads a whole number from a text: as it stands, or else in its plain form. -/
def readIntText (s : Text) : Except Complaint Int :=
  match readNumeral s, plainNumeral? s with
  | .error .intParsing, some plain => readNumeral plain
  | result, _ => result

/-- Reads a whole number. -/
def readInt : Value → Checked Int
  | .int n => .valid n
  | .bool b => .valid (if b then 1 else 0)
  | .float x =>
    match Decimal.Reading.ofFloat x, Decimal.integer? x with
    | .finite .., some n =>
      if -wordBound < n ∧ n < wordBound then .valid n else .refuse .intParsingSize
    | .finite .., none => .refuse .intFromFloat
    | _, _ => .refuse .finiteNumber
  | .text s =>
    match readIntText s with
    | .ok n => .valid n
    | .error complaint => .refuse complaint
  | _ => .refuse .intType

/-- Reads a whole number of at least one. -/
def readPositive (value : Value) : Checked Nat :=
  match readInt value with
  | .valid n => if 1 ≤ n then .valid n.toNat else .refuse .greaterThanEqual
  | .refused issues => .refused issues

/-- Whether a text is a file extension: a point, and points and word characters behind it. -/
def isExtension : Text → Bool
  | '.' :: rest => !rest.isEmpty && rest.all fun c => c == '.' || Text.isExtensionWord c
  | _ => false

/-- Reads a file extension. -/
def readExtension : Value → Checked Text
  | .text s => if isExtension s then .valid s else .refuse .patternMismatch
  | _ => .refuse .stringType

/-- Reads the field that has one of the names, the first name that is present; a field that is
absent has its usual value. -/
def field {α : Type} (record : Mapping Value) (names : List String) (usual : α)
    (read : Value → Checked α) : Checked α :=
  match names.findSome? fun name => (record.get? name.toList).map fun value => (name, value) with
  | some (name, value) => (read value).under name.toList
  | none => .valid usual

/-- Reads a record from a mapping. -/
def readRecord {α : Type} (read : Mapping Value → Checked α) : Value → Checked α
  | .mapping record => read record
  | _ => .refuse .modelType

end Stencil.Schema
