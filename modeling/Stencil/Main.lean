import Stencil.Command.Places
import Stencil.Command.Run

/-!
# The program

Reads a command line, takes a picture of the places that the command looks at, carries the command
out on it, and writes back what has changed.
-/

namespace Stencil.Program

/-- How the program is called. -/
def usage : String :=
  "usage: stencil [-v] render TEMPLATE [-c FILE] [-s KEY=VALUE] [--templates-dir DIR] [-o PATH]\n"
    ++ "       stencil [-v] lint [DIRECTORY] [--extension EXT]\n"
    ++ "       stencil [-v] new NAME [-o DIR] [-f FEATURE] [--test-profile PROFILE]\n"
    ++ "               [--package-manager MANAGER] [--author NAME] [--description TEXT]\n"
    ++ "               [--license LICENSE]"

/-- The text of a location. -/
def nameOf (location : Location) : String := String.ofList (Path.text ⟨.root, location⟩)

/-- The location of a path seen from a directory. -/
def locationOf (here : Location) (path : Path) : Location := (path.resolve here).parts

/-- The tree with what stands at a location. -/
def copySpot (tree : FileTree) (location : Location) : IO FileTree := do
  try
    let place ← IO.FS.realPath (nameOf location)
    if ← place.isDir then return tree.put location .directory
    else if ← place.pathExists then
      return tree.put location (.file (.ofBytes (← IO.FS.readBinFile place).toList))
    else return tree
  catch _ => return tree

/-- The tree with what stands at a location and at those on the way to it. -/
def copyWay (tree : FileTree) (location : Location) : IO FileTree :=
  ((List.range (location.length + 1)).map location.take).foldlM copySpot tree

/-- The tree with what stands at a location and below it. -/
def copyAll (tree : FileTree) (location : Location) : IO FileTree := do
  let mut tree ← copyWay tree location
  if tree.at? location == some .directory then
    let place ← IO.FS.realPath (nameOf location)
    let depth := place.components.length
    for path in ← place.walkDir do
      let names := (path.components.drop depth).map String.toList
      tree ← copyWay tree (location ++ names)
  return tree

/-- A picture of the places that a command looks at. -/
def picture (start : FileTree) (places : Command.Places) : IO FileTree := do
  let tree ← copyWay start start.here
  let tree ← places.spots.foldlM (fun tree path => copyWay tree (locationOf start.here path)) tree
  places.directories.foldlM (fun tree path => copyAll tree (locationOf start.here path)) tree

/-- Writes what a tree has and another one has not. -/
def writeBack (before after : FileTree) : IO Unit := do
  for (location, entry) in after.entries do
    if before.at? location != some entry then
      match entry with
      | .directory => IO.FS.createDirAll (nameOf location)
      | .file (.text s) => IO.FS.writeFile (nameOf location) (String.ofList s)
      | .file (.raw bytes _) => IO.FS.writeBinFile (nameOf location) ⟨bytes.toArray⟩

/-- Carries out a command line and gives the exit code. -/
def run (words : List Text) : IO UInt32 := do
  match Command.read words with
  | .error .help =>
    IO.println usage
    return 0
  | .error .usage =>
    IO.eprintln usage
    return 2
  | .ok invocation =>
    let here := (Path.ofText (← IO.currentDir).toString.toList).parts
    match Bundled.install ⟨[], here⟩ with
    | .error fault =>
      IO.eprintln (String.ofList fault.message)
      return 1
    | .ok bundled =>
      let before ← picture bundled invocation.request.places
      let (code, shell) := Command.run words ⟨before, [], []⟩
      writeBack before shell.tree
      for line in shell.messages.flatMap Message.lines do
        IO.println (String.ofList line)
      IO.print (String.ofList shell.output)
      return UInt32.ofNat code

end Stencil.Program

/-- Runs the program. -/
def main (args : List String) : IO UInt32 := Stencil.Program.run (args.map String.toList)
