import Stencil.Value.Basic
import Stencil.Decimal.Notation
import Stencil.Text.Quoted

/-!
# Writing JSON

A value as JSON, on one line or with one line per item, in ASCII alone or with all characters kept.
An integer of more than 4300 digits has no text, nor has a value that holds one.
-/

namespace Stencil

/-- The most digits an integer may have to be read or written. -/
def digitLimit : Nat := 4300

/-- The digits of an integer with a sign if it is negative; nothing if they are too many. -/
def integerText? (n : Int) : Option Text :=
  let digits := Nat.toDigits 10 n.natAbs
  if digitLimit < digits.length then none else some (if n < 0 then '-' :: digits else digits)

namespace Json

/-- How JSON is laid out. -/
structure Style where
  /-- Spaces per level when every item has a line of its own. -/
  indent : Option Nat
  /-- Whether all but ASCII is escaped. -/
  ascii : Bool

/-- All on one line, in ASCII. -/
def Style.line : Style := ⟨none, true⟩

/-- Two spaces per level, in ASCII. -/
def Style.page : Style := ⟨some 2, true⟩

/-- Two spaces per level, all characters kept. -/
def Style.record : Style := ⟨some 2, false⟩

/-- Numbers have a point from `0.0001` up to `10 ^ 16` and an exponent of two digits beyond. -/
def floatLayout : Decimal.Layout where
  least := -4
  beyond := 16
  exponentDigits := 2
  notANumber := "NaN".toList
  infinity := "Infinity".toList
  negativeInfinity := "-Infinity".toList

/-- The escape of a 16-bit unit. -/
def escapedUnit (n : Nat) : Text := ['\\', 'u'] ++ Text.hex 4 n

/-- The escape of a character by its code: two units if it lies beyond the first 65536. -/
def escapedCode (c : Char) : Text :=
  if c.toNat < 0x10000 then escapedUnit c.toNat
  else
    escapedUnit (0xd800 + (c.toNat - 0x10000) / 0x400)
      ++ escapedUnit (0xdc00 + (c.toNat - 0x10000) % 0x400)

/-- A character inside a string: quotes, backslashes and common controls have short escapes, other
controls are escaped by their code, and so is all from U+007F on in ASCII. -/
def stringChar (ascii : Bool) (c : Char) : Text :=
  if c == '"' || c == '\\' then ['\\', c]
  else if c == '\n' then ['\\', 'n']
  else if c == '\r' then ['\\', 'r']
  else if c == '\t' then ['\\', 't']
  else if c == '\x0c' then ['\\', 'f']
  else if c == '\x08' then ['\\', 'b']
  else if c.toNat < 32 || (ascii && 127 ≤ c.toNat) then escapedCode c
  else [c]

/-- A text as a JSON string. -/
def string (ascii : Bool) (s : Text) : Text := ['"'] ++ s.flatMap (stringChar ascii) ++ ['"']

/-- What stands between a bracket and the nearest item, at a level. -/
def Style.edge (style : Style) (level : Nat) : Text :=
  match style.indent with
  | none => []
  | some width => '\n' :: List.replicate (width * level) ' '

/-- What stands between two items, at a level. -/
def Style.between (style : Style) (level : Nat) : Text :=
  match style.indent with
  | none => [',', ' ']
  | some _ => ',' :: style.edge level

mutual

/-- A value at a level of nesting. -/
def write? (style : Style) (level : Nat) : Value → Option Text
  | .null => some "null".toList
  | .bool true => some "true".toList
  | .bool false => some "false".toList
  | .int n => integerText? n
  | .float x => some (floatLayout.float x)
  | .text s => some (string style.ascii s)
  | .list [] => some "[]".toList
  | .list (item :: rest) => do
    let first ← write? style (level + 1) item
    let more ← writeItems? style (level + 1) rest
    some (['['] ++ style.edge (level + 1) ++ first ++ more ++ style.edge level ++ [']'])
  | .mapping [] => some ['\x7b', '\x7d']
  | .mapping ((key, value) :: rest) => do
    let first ← write? style (level + 1) value
    let more ← writeEntries? style (level + 1) rest
    some (['\x7b'] ++ style.edge (level + 1) ++ string style.ascii key ++ [':', ' '] ++ first
      ++ more ++ style.edge level ++ ['\x7d'])

/-- The items of a list after the first one. -/
def writeItems? (style : Style) (level : Nat) : List Value → Option Text
  | [] => some []
  | item :: rest => do
    let first ← write? style level item
    let more ← writeItems? style level rest
    some (style.between level ++ first ++ more)

/-- The entries of a mapping after the first one. -/
def writeEntries? (style : Style) (level : Nat) : List (Text × Value) → Option Text
  | [] => some []
  | (key, value) :: rest => do
    let first ← write? style level value
    let more ← writeEntries? style level rest
    some (style.between level ++ string style.ascii key ++ [':', ' '] ++ first ++ more)

end

end Json

end Stencil
