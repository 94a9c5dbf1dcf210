import Stencil.Text.Basic

/-!
# HTML text

How a text is made safe inside HTML: the five characters with a meaning there are written as
entities. Each character is looked at once, so an entity that was just written is never escaped
again.
-/

namespace Stencil.Html

/-- The form of a character: an entity for `&`, `<`, `>` and the two quotes. -/
def entity (c : Char) : Text :=
  if c == '&' then "&amp;".toList
  else if c == '<' then "&lt;".toList
  else if c == '>' then "&gt;".toList
  else if c == '"' then "&quot;".toList
  else if c == '\'' then "&#39;".toList
  else [c]

/-- A text with entities for the characters that have a meaning in HTML. -/
def escape (s : Text) : Text := s.flatMap entity

end Stencil.Html
