import Stencil.Text.Word

/-!
# Quoted texts

How a text is quoted inside a message: between single quotes, or between double quotes if it holds
a single quote and no double one. The quote in use and the backslash are escaped, line breaks and
tabs have short escapes, and any other character without a visible form is written by its code.
-/

namespace Stencil.Text

/-- A number in base sixteen, small letters, filled with zeros up to `width` digits. -/
def hex (width n : Nat) : Text := (Nat.toDigits 16 n).leftpad width '0'

/-- The quote put around a text. -/
def quoteFor (s : Text) : Char :=
  if s.contains '\'' && !s.contains '"' then '"' else '\''

/-- The form of one character between the quotes `quote`. -/
def quotedChar (quote c : Char) : Text :=
  if c == quote || c == '\\' then ['\\', c]
  else if c == '\t' then ['\\', 't']
  else if c == '\n' then ['\\', 'n']
  else if c == '\r' then ['\\', 'r']
  else if isPrintable c then [c]
  else if c.toNat ≤ 0xff then ['\\', 'x'] ++ hex 2 c.toNat
  else if c.toNat ≤ 0xffff then ['\\', 'u'] ++ hex 4 c.toNat
  else ['\\', 'U'] ++ hex 8 c.toNat

/-- A text as a message quotes it. -/
def quoted (s : Text) : Text :=
  let quote := quoteFor s
  [quote] ++ s.flatMap (quotedChar quote) ++ [quote]

end Stencil.Text
