import Stencil.Mapping

/-!
# Values

What a context holds: nothing, a truth value, a number, a text, a list, or a mapping from names to
values. Templates ask of a value whether it is set.
-/

namespace Stencil

/-- A value of a context. -/
inductive Value
  | null
  | bool (b : Bool)
  | int (n : Int)
  | float (x : Float)
  | text (s : Text)
  | list (items : List Value)
  | mapping (entries : List (Text × Value))

instance : Inhabited Value := ⟨.null⟩

namespace Value

/-- Whether a value counts as present outside templates: all but null, `false`, zero, and whatever
is empty. -/
def isPresent : Value → Bool
  | null => false
  | bool b => b
  | int n => n != 0
  | float x => x != 0
  | text s => !s.isEmpty
  | list items => !items.isEmpty
  | mapping entries => !entries.isEmpty

/-- Whether a condition of a template holds for a value. Here a number that is not a number counts
as absent, too. -/
def isTruthy : Value → Bool
  | float x => !x.isNaN && x != 0
  | value => value.isPresent

/-- The entries of a mapping. -/
def mapping? : Value → Option (Mapping Value)
  | mapping entries => some entries
  | _ => none

/-- The items of a list. -/
def list? : Value → Option (List Value)
  | list items => some items
  | _ => none

/-- Whether a value is null. -/
def isNull : Value → Bool
  | null => true
  | _ => false

end Value

/-- The names that a template can refer to, with their values. -/
abbrev Context := Mapping Value

end Stencil
