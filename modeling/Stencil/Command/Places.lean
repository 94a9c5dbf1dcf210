import Stencil.Command.Basic

/-!
# Places

The places of a file system that a command may look at, so that all else can be left alone.
-/

namespace Stencil.Command

/-- The directories that a command looks into, with all that is below them, and the single places
that it looks at. -/
structure Places where
  directories : List Path
  spots : List Path

/-- The places of a rendering: the template, the directory in which partials are searched, the
output, and the file of the context. -/
def RenderOptions.places (o : RenderOptions) : Places :=
  let template := Path.ofText o.template
  let partials := (o.templatesDir.map Path.ofText).getD template.parent
  { directories := template :: partials :: (o.output.map Path.ofText).toList
    spots := (o.context.map Path.ofText).toList }

/-- The places of a command. -/
def Request.places : Request → Places
  | .render options => options.places
  | .lint options => ⟨[.ofText options.directory], []⟩
  | .create options => ⟨[], [(Path.ofText options.output).child options.name]⟩

end Stencil.Command
