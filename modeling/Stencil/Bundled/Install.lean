import Stencil.Bundled.Application
import Stencil.Bundled.Tests
import Stencil.Engine.Settings
import Stencil.FileTree.Basic

/-!
# Bundled templates

The templates that come with the library, as files of a file tree.
-/

namespace Stencil.Bundled

/-- The text of a template from its lines. -/
def sourceOf (lines : List String) : Text :=
  (List.intercalate ['\n'] (lines.map String.toList)).map fun c =>
    if c == '⟦' then '\x7b' else if c == '⟧' then '\x7d' else c

/-- The files below a directory. -/
def filesAt (directory : Path) (files : List (String × List String)) : List (Path × Text) :=
  files.map fun (name, lines) => (directory.child name.toList, sourceOf lines)

/-- All files with their paths. -/
def files : List (Path × Text) :=
  filesAt Engine.bundledTemplates applicationFiles
    ++ filesAt Engine.bundledTestTemplates testFiles

/-- The tree with all files written to it. -/
def install (tree : FileTree) : Except Fault FileTree :=
  (files.forM fun (path, text) => FileTree.writeFile path text).stateAfter tree

end Stencil.Bundled
