import Stencil.Text.Basic

/-!
# Messages

What an operation tells the user besides its result.
-/

namespace Stencil

/-- A message to the user. -/
inductive Message
  | success (s : Text)
  | error (s : Text)
  | warning (s : Text)
  | info (s : Text)
  /-- A table with a title and rows of a label and a value. -/
  | table (title : Text) (rows : List (Text × Text))
  /-- The line that closes a list of warnings. -/
  | total (s : Text)

/-- A message as lines of plain text. -/
def Message.lines : Message → List Text
  | success s | error s | warning s | info s | total s => [s]
  | table title rows => title :: rows.map fun (label, value) => label ++ ": ".toList ++ value

end Stencil
