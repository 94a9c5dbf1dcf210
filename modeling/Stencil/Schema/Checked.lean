import Stencil.Schema.Issue

/-!
# Checked records

A record is read field by field. If some fields have issues, all of them are told, in the order of
the fields. This is how the validation library with which the settings are declared reads records.
-/

namespace Stencil.Schema

/-- A value that was read, or the issues that stand against it. -/
inductive Checked (α : Type)
  | valid (a : α)
  | refused (issues : List Issue)

namespace Checked

variable {α β : Type}

/-- Issues of a function and of its argument are told together. -/
def apply (f : Checked (α → β)) (x : Unit → Checked α) : Checked β :=
  match f, x () with
  | valid f, valid a => valid (f a)
  | valid _, refused issues => refused issues
  | refused issues, valid _ => refused issues
  | refused issues, refused more => refused (issues ++ more)

instance : Applicative Checked where
  pure := valid
  seq := apply

/-- One issue, against the value itself. -/
def refuse (complaint : Complaint) : Checked α := refused [⟨[], complaint⟩]

/-- The issues of a record that is the field `key` of a larger one. -/
def under (key : Text) : Checked α → Checked α
  | valid a => valid a
  | refused issues => refused (issues.map (·.under key))

end Checked

end Stencil.Schema
