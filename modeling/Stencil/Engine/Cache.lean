import Stencil.Template.Parse

/-!
# The cache of trees

Trees of templates that were read are kept by their source. The cache holds a limited number of
them; the one that has not been used for the longest time goes first.
-/

namespace Stencil

/-- A tree that is kept. -/
structure Kept where
  source : Text
  tree : Template.Parsed
  /-- How many trees were made before this one. -/
  serial : Nat

/-- A cache of trees, the latest used one first. -/
structure Cache where
  capacity : Nat
  slots : List Kept
  /-- How many trees were made so far. -/
  made : Nat

namespace Cache

/-- A cache that holds nothing yet. -/
def empty (capacity : Nat) : Cache := ⟨capacity, [], 0⟩

/-- How many trees a cache can count. -/
def countLimit : Nat := 0x7fffffffffffffff

/-- The tree that is kept for a source. -/
def find? (c : Cache) (source : Text) : Option Kept := c.slots.find? (·.source == source)

/-- Uses the tree of a source: the one that is kept, or a new one, for which the tree used longest
ago makes room. -/
def use (c : Cache) (source : Text) : Kept × Cache :=
  match c.find? source with
  | some kept => (kept, { c with slots := kept :: c.slots.filter (·.source != source) })
  | none =>
    let kept : Kept := ⟨source, Template.parse source, c.made⟩
    (kept, { c with slots := (kept :: c.slots).take c.capacity, made := c.made + 1 })

/-- How many trees are kept. -/
def size (c : Cache) : Nat := c.slots.length

end Cache

end Stencil
