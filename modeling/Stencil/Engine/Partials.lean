import Stencil.FileTree.Basic

/-!
# Partials

The store of partials is a read-through cache before a directory. The directory is walked once, to
learn which names there are; a source is read when it is first asked for and is kept from then on,
also when its file changes. A source that was handed in under a name before its file was read takes
the place of the file.
-/

namespace Stencil

/-- A store of partials. -/
structure Partials where
  /-- Where the files of partials are; a store without a directory has only what it is handed. -/
  directory : Option Path
  extension : Text
  /-- Paths of the files that are known, by name. -/
  paths : Mapping Path
  /-- Sources that were read or handed in, by name. -/
  sources : Mapping Text

namespace Partials

/-- A text without an ending that it has. -/
def withoutEnding (ending s : Text) : Text :=
  if Text.endsWith ending s then s.take (s.length - ending.length) else s

/-- The name of the partial in a file: the path seen from the directory, without the extension. -/
def nameOf (path root : Path) (extension : Text) : Except Fault Text :=
  match path.relativeTo? root with
  | some relative => .ok (withoutEnding extension relative.text)
  | none => .error (.notBelow path root)

/-- The files below a directory whose names end in the extension, in order. -/
def filesWith (tree : FileTree) (directory : Path) (extension : Text) :
    Except Fault (List (List Text)) := do
  return (← tree.filesBelow directory).filter fun names =>
    names.getLast?.any (Text.endsWith extension)

/-- The path of a file by the names that lead to it. -/
def pathBelow (directory : Path) (names : List Text) : Path := directory.join ⟨.here, names⟩

/-- The partials that a directory holds, by name. -/
def discover (tree : FileTree) (directory : Path) (extension : Text) :
    Except Fault (Mapping Path) := do
  return Mapping.ofEntries ((← filesWith tree directory extension).map fun names =>
    (withoutEnding extension (Path.text ⟨.here, names⟩), pathBelow directory names))

/-- A store for a directory. -/
def ofDirectory (tree : FileTree) (directory : Path) (extension : Text) :
    Except Fault Partials := do
  return ⟨some directory, extension, ← discover tree directory extension, []⟩

/-- A store without a directory. -/
def inMemory : Partials := ⟨none, ".hbs".toList, [], []⟩

/-- The file in which a partial is looked for. -/
def pathOf? (p : Partials) (name : Text) : Option Path :=
  match p.paths.get? name with
  | some path => some path
  | none => p.directory.map (·.child (name ++ p.extension))

/-- The source of a partial, if there is one, and the store that keeps it. -/
def load (p : Partials) (tree : FileTree) (name : Text) : Except Fault (Option Text × Partials) :=
  match p.sources.get? name with
  | some source => .ok (some source, p)
  | none =>
    match p.pathOf? name with
    | none => .ok (none, p)
    | some path => do
      if ← tree.hasFile path then
        let source ← tree.readText path
        let paths := if p.paths.has name then p.paths else p.paths.set name path
        return (some source, { p with paths := paths, sources := p.sources.set name source })
      else return (none, p)

/-- The store with a source handed in, and whether it was taken: a name that has a source keeps
it. -/
def register (p : Partials) (name source : Text) : Bool × Partials :=
  if p.sources.has name then (false, p)
  else (true, { p with sources := p.sources.set name source })

/-- The names that the store knows, in order, each once. -/
def names (p : Partials) : List Text :=
  ((p.paths.keys ++ p.sources.keys).mergeSort Text.le).eraseDups

/-- Whether the store knows a name. -/
def knows (p : Partials) (name : Text) : Bool := p.names.contains name

end Partials

end Stencil
