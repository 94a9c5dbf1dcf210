import Stencil.FileTree.Basic
import Stencil.Text.Pattern

/-!
# Searching a file tree

A search goes down from a directory part by part: to the entry of a name, to the entries that a
pattern describes, or, for two stars, to the directory at hand and all directories below it.
-/

namespace Stencil

/-- A step of a search. -/
inductive SearchPart
  /-- To the directory at hand and all directories below it. -/
  | anywhere
  | name (s : Text)
  | pattern (pieces : List Text.PatternPiece)

/-- Two stars. -/
def SearchPart.twoStars : Text := ['*', '*']

/-- The step that a part of a path stands for. Two stars are a part of their own. -/
def SearchPart.ofText (s : Text) : Except Fault SearchPart :=
  if s == twoStars then .ok .anywhere
  else if Text.includes twoStars s then .error .wrongPattern
  else if Text.isPattern s then .ok (.pattern (Text.patternPieces s))
  else .ok (.name s)

namespace FileTree

/-- The entries of a directory, by their names. -/
def children (t : FileTree) (directory : Path) : List Text :=
  match t.find directory with
  | .ok (location, .directory) => t.entries.filterMap fun (place, _) =>
    match location.isPrefixOf? place with
    | some [name] => some name
    | _ => none
  | _ => []

/-- The names that lead from a directory to itself and to the directories below it. -/
def directoriesBelow (t : FileTree) (directory : Path) : List (List Text) :=
  match t.find directory with
  | .ok (location, .directory) => [] :: t.entries.filterMap fun
    | (place, .directory) => (location.isPrefixOf? place).filter (!·.isEmpty)
    | _ => none
  | _ => []

/-- Whether a search may go on to an entry of a directory: if there is one, and, before a further
step, if it is a directory. -/
def admits (t : FileTree) (here : Path) (isLast : Bool) (name : Text) : Except Fault Bool :=
  if isLast then t.hasEntry (here.join ⟨.here, [name]⟩)
  else t.hasDirectory (here.join ⟨.here, [name]⟩)

/-- The names that a step of a search leads to from a directory. -/
def searchStep (t : FileTree) (here : Path) (isLast : Bool) :
    SearchPart → Except Fault (List (List Text))
  | .anywhere => .ok (t.directoriesBelow here)
  | .name s => do return if ← t.admits here isLast s then [[s]] else []
  | .pattern pieces => do
    let described := (t.children here).filter (Text.describes pieces)
    return (← described.filterM (t.admits here isLast)).map ([·])

/-- Where a search leads from what `names` lead to. -/
def search (t : FileTree) (directory : Path) :
    List SearchPart → List Text → Except Fault (List (List Text))
  | [], names => .ok [names]
  | part :: rest, names => do
    let steps ← t.searchStep (directory.join ⟨.here, names⟩) rest.isEmpty part
    let found ← steps.mapM fun step => t.search directory rest (names ++ step)
    return found.flatten

/-- The files below a directory, at any depth, that a pattern describes, in order, each once; the
pattern may have several parts. -/
def filesLike (t : FileTree) (directory : Path) (pattern : Text) :
    Except Fault (List (List Text)) := do
  let parts ← (Path.partsOf pattern).mapM SearchPart.ofText
  if !(← t.hasDirectory directory) || Text.endsWith ['/'] pattern then return []
  let found ← t.search directory (.anywhere :: parts) []
  let files ← found.filterM fun names => t.hasFile (directory.join ⟨.here, names⟩)
  return (files.mergeSort Path.partsLe).eraseDups

end FileTree

end Stencil
