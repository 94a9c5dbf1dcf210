import Stencil.Text.Basic

/-!
# Paths

The name of a file or directory: an anchor and parts. Empty parts and parts that are a single point
are left out when a text is read as a path; two points are kept.
-/

namespace Stencil

/-- Where a path starts. -/
inductive Anchor
  /-- From the directory at hand. -/
  | here
  /-- From the root. -/
  | root
  /-- From the root, written with two slashes. -/
  | doubleRoot
deriving DecidableEq, Repr

/-- The text of an anchor. -/
def Anchor.text : Anchor → Text
  | here => []
  | root => ['/']
  | doubleRoot => ['/', '/']

/-- A path. -/
structure Path where
  anchor : Anchor
  parts : List Text
deriving DecidableEq, Repr

namespace Path

/-- The anchor that a text begins with: three slashes or more count as one. -/
def anchorOf : Text → Anchor
  | '/' :: '/' :: '/' :: _ => .root
  | '/' :: '/' :: _ => .doubleRoot
  | '/' :: _ => .root
  | _ => .here

/-- Whether a piece between slashes is left out. -/
def isVoid (part : Text) : Bool := part.isEmpty || part == ['.']

/-- The parts of a text. -/
def partsOf (s : Text) : List Text := (s.splitOn '/').filter (!isVoid ·)

/-- Reads a text as a path. -/
def ofText (s : Text) : Path := ⟨anchorOf s, partsOf s⟩

/-- The text of a path; a path without anchor and parts is a point. -/
def text (p : Path) : Text :=
  match p.anchor, p.parts with
  | .here, [] => ['.']
  | anchor, parts => anchor.text ++ List.intercalate ['/'] parts

/-- The directory at hand. -/
def here : Path := ⟨.here, []⟩

/-- Whether a path starts from a root. -/
def isAbsolute (p : Path) : Bool := p.anchor != .here

/-- The path `q` seen from the directory `p`: a `q` that starts from a root stays as it is. -/
def join (p q : Path) : Path := if q.isAbsolute then q else ⟨p.anchor, p.parts ++ q.parts⟩

/-- The path that a text names, seen from the directory `p`. -/
def child (p : Path) (s : Text) : Path := p.join (ofText s)

/-- The path without its last part. -/
def parent (p : Path) : Path := ⟨p.anchor, p.parts.dropLast⟩

/-- Whether `dir` is the path less one or more of its last parts. -/
def isBelow (p dir : Path) : Bool :=
  p.anchor == dir.anchor && dir.parts.isPrefixOf p.parts && dir.parts.length < p.parts.length

/-- The parts of a path after those of `root`. -/
def partsAfter? (p root : Path) : Option (List Text) :=
  if p.anchor == root.anchor then root.parts.isPrefixOf? p.parts else none

/-- The path seen from `root`, if it begins with it. -/
def relativeTo? (p root : Path) : Option Path := (p.partsAfter? root).map (⟨.here, ·⟩)

/-- Parts in the order of their first difference, a shorter list first. -/
def partsLe : List Text → List Text → Bool
  | [], _ => true
  | _ :: _, [] => false
  | a :: r, b :: t => if a == b then partsLe r t else Text.le a b

/-- The parts after two points have taken away the part before them. -/
def foldUps (parts : List Text) : List Text :=
  parts.foldl (fun done part => if part == ['.', '.'] then done.dropLast else done ++ [part]) []

/-- The path from the root, seen from the directory with parts `base`, without two points. -/
def resolve (p : Path) (base : List Text) : Path :=
  ⟨.root, foldUps (if p.isAbsolute then p.parts else base ++ p.parts)⟩

end Path

end Stencil
