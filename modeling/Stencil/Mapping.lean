import Stencil.Text.Basic

/-!
# Mappings

Keys with values in the order in which the keys were first written. Writing a key that is present
changes its value and keeps its place; a new key goes to the end.
-/

namespace Stencil

/-- Keys with their values, in order. -/
abbrev Mapping (α : Type) := List (Text × α)

namespace Mapping

variable {α : Type}

/-- The value written for a key. -/
def get? : Mapping α → Text → Option α
  | [], _ => none
  | (k, v) :: rest, key => if key == k then some v else get? rest key

/-- Whether a key is present. -/
def has (m : Mapping α) (key : Text) : Bool := (m.get? key).isSome

/-- The mapping with a value written for a key. -/
def set : Mapping α → Text → α → Mapping α
  | [], key, value => [(key, value)]
  | (k, v) :: rest, key, value =>
    if key == k then (k, value) :: rest else (k, v) :: set rest key value

/-- The mapping with all entries of `upper` written on top, in order. -/
def merge (m upper : Mapping α) : Mapping α := upper.foldl (fun m entry => m.set entry.1 entry.2) m

/-- The mapping that a list of entries spells: of several values for a key the last one counts, and
its place is that of the first. -/
def ofEntries (entries : List (Text × α)) : Mapping α := merge [] entries

/-- The keys in order. -/
def keys (m : Mapping α) : List Text := m.map (·.1)

/-- What a written key holds. -/
@[simp] theorem get?_set_self (m : Mapping α) (key : Text) (value : α) :
    (m.set key value).get? key = some value := by
  induction m with
  | nil => simp [set, get?]
  | cons entry rest ih =>
    obtain ⟨k, v⟩ := entry
    by_cases h : key = k <;> simp [set, get?, h, ih]

/-- Writing one key changes no other. -/
@[simp] theorem get?_set_of_ne (m : Mapping α) {key other : Text} (value : α) (h : other ≠ key) :
    (m.set key value).get? other = m.get? other := by
  induction m with
  | nil => simp [set, get?, h]
  | cons entry rest ih =>
    obtain ⟨k, v⟩ := entry
    by_cases hk : key = k
    · subst hk
      simp [set, get?, h]
    · by_cases ho : other = k <;> simp [set, get?, hk, ho, ih]

/-- A present key keeps its place, a new one goes to the end. -/
theorem keys_set (m : Mapping α) (key : Text) (value : α) :
    (m.set key value).keys = if key ∈ m.keys then m.keys else m.keys ++ [key] := by
  induction m with
  | nil => simp [set, keys]
  | cons entry rest ih =>
    obtain ⟨k, v⟩ := entry
    by_cases h : key = k
    · subst h
      simp [set, keys]
    · have step : keys ((k, v) :: set rest key value) = k :: keys (set rest key value) := rfl
      simp only [set, beq_iff_eq, h, if_false, step, ih]
      by_cases hm : key ∈ keys rest <;> simp_all [keys]

end Mapping

end Stencil
