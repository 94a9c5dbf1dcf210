import Stencil.Engine.Basic
import Stencil.Scaffold.Features
import Stencil.Scaffold.Providers

/-!
# Test files

Which test files a project gets for its features and the profile of its tests. A file that would be
blank is not made.
-/

namespace Stencil

/-- A test file of a project. -/
structure TestFile where
  template : Text
  filename : Text
  /-- The directory of the file, seen from the root of the project. -/
  directory : Text
  /-- Whether a project with these features gets the file. -/
  applies : Features → Bool

/-- A test file with its content. -/
structure TestOutput where
  filename : Text
  content : Text
  destination : Text

namespace TestFile

/-- A file that every project gets and that tests use. -/
def support (filename : String) : TestFile :=
  ⟨(filename ++ ".hbs").toList, filename.toList, "src/test".toList, fun _ => true⟩

/-- A file with tests of a kind, for projects with certain features. -/
def test (filename : String) (type : TestType) (needs : Features → Bool) : TestFile :=
  ⟨(filename ++ ".hbs").toList, filename.toList, "src/__tests__".toList, fun f =>
    f.profile.testTypes.contains type && needs f⟩

/-- All test files. -/
def all : List TestFile :=
  [support "setup.ts",
   support "test-utils.tsx",
   test "App.test.tsx" .unit fun _ => true,
   test "store.test.ts" .redux (·.redux),
   test "router.test.tsx" .router (·.reactRouter),
   test "integration.test.tsx" .integration fun f => f.redux || f.reactRouter,
   test "a11y.test.tsx" .accessibility fun _ => true,
   test "performance.test.tsx" .performance fun _ => true,
   test "tailwind.test.tsx" .tailwind (·.tailwindcss),
   test "i18n.test.tsx" .i18n (·.i18n)]

/-- The context in which test files are rendered. -/
def context (f : Features) : Context :=
  let providers := Providers.order f.context
  [("features".toList, .mapping f.context),
   ("redux".toList, .bool f.redux),
   ("reactRouter".toList, .bool f.reactRouter),
   ("tailwindcss".toList, .bool f.tailwindcss),
   ("typescript".toList, .bool f.typescript),
   ("eslint".toList, .bool f.eslint),
   ("prettier".toList, .bool f.prettier),
   ("i18n".toList, .bool f.i18n),
   ("custom".toList, .bool (f.redux || f.reactRouter)),
   ("coverageThreshold".toList, .int f.profile.coverageThreshold),
   ("hasProviders".toList, .bool !providers.isEmpty),
   ("providerOrder".toList, .list (providers.map .text))]

/-- The text of a rendered test template, without blanks around it and with a line break at its
end. It is empty if the template is blank, and also, with a warning, if there is none. -/
def render (f : Features) (template : Text) : Action Desk Text := do
  let path := Path.ofText template
  if ← Desk.hasTemplate path then
    let desk ← get
    let source ← desk.tree.readText (desk.engine.templatePath path)
    if Text.isAllBlank source then return []
    else return Text.strip (← Desk.process source (context f)) ++ ['\n']
  else
    Desk.tell (.warning ("Test template ".toList ++ template ++ " not found".toList))
    return []

/-- The text of the settings of tests. -/
def renderSettings (f : Features) : Action Desk Text := render f "vitest.config.ts.hbs".toList

/-- The test files among some, those that are blank left out. -/
def outputs (f : Features) : List TestFile → Action Desk (List TestOutput)
  | [] => pure []
  | file :: rest => do
    let content ← render f file.template
    let more ← outputs f rest
    if Text.isAllBlank content then return more
    else return ⟨file.filename, content, file.directory ++ ['/'] ++ file.filename⟩ :: more

/-- The test files of a project with features. -/
def generate (f : Features) : Action Desk (List TestOutput) :=
  outputs f (all.filter (·.applies f))

end TestFile

end Stencil
