import Stencil.Text.Basic

/-!
# Layout of rendered text

Rendered text is tidied at the end: no line ends in spaces or tabs, and at most one empty line
stands between two others. Lines are stripped first, for a line of blanks becomes an empty one.
-/

namespace Stencil.Layout

/-- Spaces and tabs. -/
def isPadding (c : Char) : Bool := c == ' ' || c == '\t'

/-- Whether a text begins with the end of a line. -/
def atLineEnd : Text → Bool
  | [] => true
  | c :: _ => c == '\n'

/-- The text without the padding at the end of each line. -/
def stripLineEnds : Text → Text
  | [] => []
  | c :: r =>
    let rest := stripLineEnds r
    if isPadding c && atLineEnd rest then rest else c :: rest

/-- The text with at most two line breaks in a row; `breaks` stand just before it. -/
def shrinkBreaks (breaks : Nat) : Text → Text
  | [] => []
  | c :: r =>
    if c == '\n' then
      if breaks < 2 then c :: shrinkBreaks (breaks + 1) r else shrinkBreaks breaks r
    else c :: shrinkBreaks 0 r

/-- The tidied text. -/
def tidy (s : Text) : Text := shrinkBreaks 0 (stripLineEnds s)

end Stencil.Layout
