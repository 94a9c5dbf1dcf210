import Stencil.Fault

/-!
# File trees

Directories and files, and the directory from which relative paths start. A location is the list of
names from the root; a path is followed part by part, and every part but the last must be a
directory. Names and paths have a greatest length. A file holds text, or bytes that are no text.

Symbolic links, permissions and the room on a disk are left out: what stands at a location is a file
or a directory, whatever is there can be read, and writing fails only for what the tree shows.
-/

namespace Stencil

/-- Names from the root. -/
abbrev Location := List Text

/-- What a file holds. -/
inductive Content
  | text (s : Text)
  /-- Bytes that are no UTF-8, with their first flaw. -/
  | raw (bytes : List UInt8) (flaw : Utf8.Flaw)
deriving DecidableEq

/-- What bytes hold. -/
def Content.ofBytes (bytes : List UInt8) : Content :=
  match Utf8.decode bytes with
  | .ok s => .text s
  | .error flaw => .raw bytes flaw

/-- Line breaks of all kinds as line feeds: a carriage return, or one with a line feed after it. -/
def unifyBreaks : Text → Text
  | [] => []
  | '\r' :: '\n' :: r => '\n' :: unifyBreaks r
  | '\r' :: r => '\n' :: unifyBreaks r
  | c :: r => c :: unifyBreaks r

/-- The text of a file with its line breaks unified. -/
def Content.read : Content → Except Fault Text
  | text s => .ok (unifyBreaks s)
  | raw _ flaw => .error (.notText flaw)

/-- What stands at a location. -/
inductive Entry
  | directory
  | file (content : Content)
deriving DecidableEq

/-- Locations with what stands there, and the directory at hand. The root is always there. -/
structure FileTree where
  entries : List (Location × Entry)
  here : Location

namespace FileTree

/-- What stands at a location. -/
def at? (t : FileTree) (location : Location) : Option Entry :=
  if location.isEmpty then some .directory
  else (t.entries.find? (·.1 == location)).map (·.2)

/-- The tree with an entry put at a location. -/
def put (t : FileTree) (location : Location) (entry : Entry) : FileTree :=
  if t.entries.any (·.1 == location) then
    { t with entries := t.entries.map fun e => if e.1 == location then (location, entry) else e }
  else { t with entries := t.entries ++ [(location, entry)] }

/-- The tree without the entry at a location. -/
def erase (t : FileTree) (location : Location) : FileTree :=
  { t with entries := t.entries.filter (·.1 != location) }

/-- How many bytes a name may take. -/
def nameLimit : Nat := 255

/-- How many bytes a path may take. -/
def pathLimit : Nat := 4095

/-- Where a part leads from a location. -/
def step (t : FileTree) (path : Path) (location : Location) (part : Text) :
    Except Fault Location :=
  match t.at? location with
  | none => .error (.missing path)
  | some (.file _) => .error (.notDirectory path)
  | some .directory =>
    if part == ['.', '.'] then .ok location.dropLast
    else if nameLimit < Text.byteCount part then .error (.nameTooLong path)
    else .ok (location ++ [part])

/-- The location that a path leads to; nothing need stand there. -/
def locate (t : FileTree) (path : Path) : Except Fault Location :=
  if path.text.contains '\x00' then .error .nullCharacter
  else if pathLimit < Text.byteCount path.text then .error (.nameTooLong path)
  else path.parts.foldlM (t.step path) (if path.isAbsolute then [] else t.here)

/-- What stands where a path leads. -/
def find (t : FileTree) (path : Path) : Except Fault (Location × Entry) := do
  let location ← t.locate path
  match t.at? location with
  | none => .error (.missing path)
  | some entry => .ok (location, entry)

/-- What stands where a path leads, if it leads to something. No path is looked for that is too
long. -/
def find? (t : FileTree) (path : Path) : Except Fault (Option (Location × Entry)) :=
  match t.find path with
  | .ok found => .ok (some found)
  | .error (.nameTooLong path) => .error (.nameTooLong path)
  | .error _ => .ok none

/-- Whether something stands where a path leads. -/
def hasEntry (t : FileTree) (path : Path) : Except Fault Bool := do
  return (← t.find? path).isSome

/-- Whether a path leads to a file. -/
def hasFile (t : FileTree) (path : Path) : Except Fault Bool := do
  match ← t.find? path with
  | some (_, .file _) => return true
  | _ => return false

/-- Whether a path leads to a directory. -/
def hasDirectory (t : FileTree) (path : Path) : Except Fault Bool := do
  match ← t.find? path with
  | some (_, .directory) => return true
  | _ => return false

/-- What the file holds that a path leads to. -/
def content (t : FileTree) (path : Path) : Except Fault Content := do
  match ← t.find path with
  | (_, .file content) => .ok content
  | (_, .directory) => .error (.isDirectory path)

/-- The text of the file that a path leads to. -/
def readText (t : FileTree) (path : Path) : Except Fault Text := do (← t.content path).read

/-- The tree with a text written to the file that a path leads to. -/
def writeText (t : FileTree) (path : Path) (s : Text) : Except Fault FileTree := do
  let location ← t.locate path
  match t.at? location with
  | some .directory => .error (.isDirectory path)
  | _ => .ok (t.put location (.file (.text s)))

/-- The tree with a new directory where a path leads; its parent must be there. -/
def makeDirectory (t : FileTree) (path : Path) : Except Fault FileTree := do
  let location ← t.locate path
  match t.at? location with
  | some _ => .error (.occupied path)
  | none => .ok (t.put location .directory)

/-- What becomes of the fault that no directory could be made where a path leads: it counts for
nothing if one is there already and `present` allows that. -/
def settle (t : FileTree) (path : Path) (present : Bool) : Fault → Except Fault Unit
  | .missing missing => .error (.missing missing)
  | .nullCharacter => .error .nullCharacter
  | fault => do if present && (← t.hasDirectory path) then return () else throw fault

/-- Makes a directory where a path leads, and the directories above it as needed. The directory may
be there already if `present` allows it. What was made stays also if the rest cannot be made. -/
def makeDirectories (path : Path) (present : Bool) : Action FileTree Unit := fun t =>
  match t.makeDirectory path with
  | .ok made => (.ok (), made)
  | .error (.missing missing) =>
    if _ : path.parts = [] then (.error (.missing missing), t)
    else
      match makeDirectories path.parent true t with
      | (.error fault, above) => (.error fault, above)
      | (.ok (), above) =>
        match above.makeDirectory path with
        | .ok made => (.ok (), made)
        | .error fault => (above.settle path present fault, above)
  | .error fault => (t.settle path present fault, t)
termination_by path.parts.length
decreasing_by
  have := List.length_pos_iff.mpr ‹¬path.parts = []›
  simp [Path.parent]
  omega

/-- Writes a text to a file, the directories above it made as needed. -/
def writeFile (path : Path) (s : Text) : Action FileTree Unit := do
  makeDirectories path.parent true
  Action.changing (·.writeText path s)

/-- The files below a location with the names that lead to them from there, in order. -/
def filesUnder (t : FileTree) (location : Location) : List (List Text × Content) :=
  let found := t.entries.filterMap fun
    | (place, .file content) =>
      match location.isPrefixOf? place with
      | some [] => none
      | some names => some (names, content)
      | none => none
    | (_, .directory) => none
  found.mergeSort fun a b => Path.partsLe a.1 b.1

/-- The names that lead from a directory to the files below it; none if it is no directory. -/
def filesBelow (t : FileTree) (directory : Path) : Except Fault (List (List Text)) := do
  match ← t.find? directory with
  | some (location, .directory) => return (t.filesUnder location).map (·.1)
  | _ => return []

end FileTree

end Stencil
