import Stencil.Text.Basic

/-!
# Package names

The name of a package is made from the name of a project: small letters, digits, points and
underscores stay, and single hyphens stand for all else between them.
-/

namespace Stencil.PackageName

/-- Characters that a package name may have. -/
def isAllowed (c : Char) : Bool :=
  ('a' ≤ c && c ≤ 'z') || c.isDigit || c == '.' || c == '_' || c == '-'

/-- A character as small letters. Two characters beyond ASCII have a small form with a letter of
ASCII in it; all others stay outside ASCII and need not be told apart here. -/
def lower (c : Char) : Text :=
  if c == '\u212a' then ['k']
  else if c == '\u0130' then ['i', '\u0307']
  else [c.toLower]

/-- A hyphen in place of a character that is not allowed. -/
def replaceChar (c : Char) : Char := if isAllowed c then c else '-'

/-- The text with one hyphen in place of several in a row. -/
def collapse : Text → Text
  | [] => []
  | [c] => [c]
  | c :: d :: r => if c == '-' && d == '-' then collapse (d :: r) else c :: collapse (d :: r)

/-- The package name made from a name. -/
def sanitize (name : Text) : Text :=
  Text.trim (· == '-') (collapse (((Text.strip name).flatMap lower).map replaceChar))

end Stencil.PackageName
