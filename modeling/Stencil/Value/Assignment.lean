import Stencil.Value.Basic
import Stencil.Fault

/-!
# Assignments

An assignment names a place in a context by keys with points between them and gives it a value. The
mappings on the way to the place are made first, then the value is read, then it is written.
-/

namespace Stencil.Assignment

/-- The mapping at a key; anything else there counts as an empty one. -/
def inner (ctx : Mapping Value) (key : Text) : Mapping Value :=
  match ctx.get? key with
  | some (.mapping entries) => entries
  | _ => []

/-- The context with a mapping at every key on the way to the last one. -/
def makeWay (ctx : Mapping Value) : List Text → Mapping Value
  | [] => ctx
  | [_] => ctx
  | key :: next :: rest => ctx.set key (.mapping (makeWay (inner ctx key) (next :: rest)))

/-- The context with a value at the end of the keys. -/
def write (ctx : Mapping Value) (value : Value) : List Text → Mapping Value
  | [] => ctx
  | [key] => ctx.set key value
  | key :: next :: rest => ctx.set key (.mapping (write (inner ctx key) value (next :: rest)))

/-- The value that a text stands for: JSON if it can be read so, and else the text itself. -/
def readValue (s : Text) : Except Fault Value :=
  match Json.read s with
  | .ok value => .ok value
  | .error (.malformed ..) => .ok (.text s)
  | .error failure => .error (.notJson s failure)

/-- The keys that a text with points between them names; empty keys are left out. -/
def keysOf (s : Text) : List Text := ((Text.strip s).splitOn '.').filter (!·.isEmpty)

/-- The two sides of the first equals sign. -/
def sides? (assignment : Text) : Option (Text × Text) := Text.cut? ['='] assignment

/-- Carries out an assignment. -/
def apply (assignment : Text) : Action Context Unit := do
  match sides? assignment with
  | none => throw (.missingEquals assignment)
  | some (left, right) =>
    match keysOf left with
    | [] => throw (.emptyKey assignment)
    | keys => do
      modify (makeWay · keys)
      let value ← readValue right
      modify (write · value keys)

end Stencil.Assignment
