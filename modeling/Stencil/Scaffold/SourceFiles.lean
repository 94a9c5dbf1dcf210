import Stencil.Engine.Basic
import Stencil.Scaffold.Features
import Stencil.Scaffold.Providers
import Stencil.Scaffold.Settings

/-!
# Application sources

Which source files a project gets for its features, and from which templates.
-/

namespace Stencil

/-- A source file of a project. -/
structure SourceFile where
  template : Text
  /-- Where the file goes, seen from the root of the project. -/
  destination : Text
  /-- The feature for which the file is made, unless it is made for every project. -/
  requires : Option Text
  /-- Whether the file is copied and not rendered. -/
  raw : Bool

namespace SourceFile

/-- A file that is rendered. -/
def rendered (template destination : String) (requires : Option String) : SourceFile :=
  ⟨template.toList, destination.toList, requires.map String.toList, false⟩

/-- The texts of a language, which are copied. -/
def locale (language : String) : SourceFile :=
  ⟨("i18n/locales/" ++ language ++ ".json.hbs").toList,
    ("src/i18n/locales/" ++ language ++ ".json").toList, some "i18n".toList, true⟩

/-- All source files. -/
def all : List SourceFile :=
  [rendered "main.tsx.hbs" "src/main.tsx" none,
   rendered "App.tsx.hbs" "src/App.tsx" none,
   rendered "App.css.hbs" "src/App.css" none,
   rendered "vite.config.ts.hbs" "vite.config.ts" none,
   rendered "store/store.ts.hbs" "src/store/store.ts" (some "redux"),
   rendered "store/slices/appSlice.ts.hbs" "src/store/slices/appSlice.ts" (some "redux"),
   rendered "i18n/config.ts.hbs" "src/i18n/config.ts" (some "i18n"),
   locale "en", locale "pt", locale "es",
   rendered "POSSIBILITIES.md.hbs" "POSSIBILITIES.md" none]

/-- The source files for features. -/
def planned (f : Features) : List SourceFile :=
  all.filter fun file =>
    match file.requires with
    | none => true
    | some flag => (f.context.get? flag).any Value.isPresent

/-- The context in which source files are rendered. -/
def context (f : Features) (m : Metadata) (packageManager : Text) : Context :=
  Providers.context f.context (m.context.set "packageManager".toList (.text packageManager))

/-- The content of a source file; nothing, but a warning, if its template is missing. -/
def content? (file : SourceFile) (ctx : Context) : Action Desk (Option Text) := do
  let template := Path.ofText file.template
  if ← Desk.hasTemplate template then
    if file.raw then
      let desk ← get
      return some (← desk.tree.readText (desk.engine.templatePath template))
    else return some (← Desk.processFile template ctx)
  else
    Desk.tell (.warning ("Template ".toList ++ file.template ++ " not found, skipping ".toList
      ++ file.destination))
    return none

/-- The contents of the source files that have a template, by destination. -/
def contents (ctx : Context) : List SourceFile → Action Desk (Mapping Text)
  | [] => pure []
  | file :: rest => do
    let first ← file.content? ctx
    let more ← contents ctx rest
    return (first.map fun text => (file.destination, text)).toList ++ more

/-- The source files of a project. -/
def generate (f : Features) (m : Metadata) (packageManager : Text) : Action Desk (Mapping Text) :=
  contents (context f m packageManager) (planned f)

end SourceFile

end Stencil
