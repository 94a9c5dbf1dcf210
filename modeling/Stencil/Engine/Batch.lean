import Stencil.Engine.Basic
import Stencil.FileTree.Search
import Stencil.Template.Lint

/-!
# Many templates

Listing, rendering and checking all templates of a directory.
-/

namespace Stencil.Desk

/-- The directory in which templates are searched: that of the engine, or one below it. -/
def searchDirectory (engine : Engine) (subdirectory : Text) : Path :=
  if subdirectory.isEmpty then engine.settings.templatesDir
  else engine.settings.templatesDir.child subdirectory

/-- The templates below a directory in the order of their names, seen from the directory of the
engine; partials are left out. -/
def listTemplates (subdirectory : Text) : Action Desk (List Text) := do
  let desk ← get
  let settings := desk.engine.settings
  let directory := searchDirectory desk.engine subdirectory
  let found ← Partials.filesWith desk.tree directory settings.extension
  let templates := (found.map (Partials.pathBelow directory)).filter fun path => !path.isBelow settings.partialsDir
  let names ← templates.mapM fun path =>
    match path.relativeTo? settings.templatesDir with
    | some relative => pure relative.text
    | none => throw (.notBelow path settings.templatesDir)
  return names.mergeSort Text.le

/-- Renders a template file into another file. -/
def renderToFile (template : Path) (output : Path) (ctx : Context) : Action Desk Path := do
  let text ← processFile template ctx
  onTree (FileTree.writeFile output text)
  return output

/-- The name of a template below a directory whose name is given by its text. -/
def nameBelow (subdirectory template : Text) : Text :=
  if subdirectory.isEmpty then template
  else (template.drop subdirectory.length).dropWhile (· == '/')

/-- Renders all templates below a directory into another one, but for those with one of the texts
in `skip` in their names. The files keep their names less the extension. -/
def renderAll (subdirectory : Text) (output : Path) (ctx : Context) (skip : List Text) :
    Action Desk (List Path) := do
  let templates ← listTemplates subdirectory
  let kept := templates.filter fun template =>
    !skip.any (Text.includes · (nameBelow subdirectory template))
  let extension := (← get).engine.settings.extension
  kept.mapM fun template => do
    let name := nameBelow subdirectory template
    let outputName := name.take (name.length - extension.length)
    renderToFile (.ofText template) (output.child outputName) ctx

end Stencil.Desk

namespace Stencil

/-- The mistakes of all templates below a directory, file by file. The templates are the files whose
names end in the extension, which may be a pattern. -/
def lintDirectory (tree : FileTree) (directory : Path) (extension : Text) :
    Except Fault (List Template.Mistake) := do
  let files ← tree.filesLike directory ('*' :: extension)
  let found ← files.mapM fun names => do
    let source ← tree.readText (Partials.pathBelow directory names)
    return Template.lint source (Path.text ⟨.here, names⟩)
  return found.flatten

end Stencil
