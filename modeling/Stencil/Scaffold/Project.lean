import Stencil.Scaffold.PackageJson
import Stencil.Scaffold.SourceFiles
import Stencil.Scaffold.TestFiles

/-!
# New projects

A project is planned before it is written: all its files are rendered first, so that nothing is
written if one of them cannot be.
-/

namespace Stencil

/-- A project that is being made. -/
structure Project where
  settings : Settings
  features : Features
  /-- The engine of source files. -/
  sources : Engine
  /-- The engine of test files, if the project has tests. -/
  tests : Option Engine

/-- A project at work: the files it reads and writes, and the messages so far. -/
structure Studio where
  project : Project
  tree : FileTree
  messages : List Message

namespace Project

/-- How the project is described. -/
def metadata (p : Project) : Metadata where
  projectName := p.settings.projectName
  author := p.settings.author
  description := p.settings.description
  license := p.settings.license

/-- The settings of the engine of test files. -/
def testEngineSettings (s : Settings) : Engine.Settings :=
  { templatesDir := s.testTemplatesDir
    extension := s.engine.extension
    verbose := s.engine.verbose }

/-- A project with settings and features. -/
def create (settings : Settings) (features : Features) (tree : FileTree) :
    Except Fault Project := do
  let sources ← Engine.ofSettings settings.engine [] tree
  if features.testing then
    let tests ← Engine.ofSettings (testEngineSettings settings) [] tree
    return ⟨settings, features, sources, some tests⟩
  else return ⟨settings, features, sources, none⟩

/-- The text of the package description. -/
def packageText (f : Features) (m : Metadata) : Except Fault Text :=
  match Json.write? .page 0 (.mapping (PackageJson.build f m)) with
  | some text => .ok (text ++ ['\n'])
  | none => .error .integerTooLong

end Project

namespace Studio

/-- Runs an operation of the engine of source files. -/
def onSources {α : Type} (action : Action Desk α) : Action Studio α :=
  Action.zoom
    (fun studio => ⟨studio.project.sources, studio.tree, studio.messages⟩)
    (fun desk studio =>
      { studio with
        project := { studio.project with sources := desk.engine }
        tree := desk.tree
        messages := desk.messages })
    action

/-- Runs an operation of an engine of test files. -/
def onTests {α : Type} (engine : Engine) (action : Action Desk α) : Action Studio α :=
  Action.zoom
    (fun studio => ⟨engine, studio.tree, studio.messages⟩)
    (fun desk studio =>
      { studio with
        project := { studio.project with tests := some desk.engine }
        tree := desk.tree
        messages := desk.messages })
    action

/-- The test files of a project that has tests: those of the profile, and the settings of tests. -/
def planTests : Action Studio (Mapping Text) := do
  let project := (← get).project
  match project.tests with
  | none => return []
  | some engine =>
    onTests engine do
      let files ← TestFile.generate project.features
      let settings ← TestFile.renderSettings project.features
      return files.map (fun file => (file.destination, file.content))
        ++ (if settings.isEmpty then [] else [("vitest.config.ts".toList, settings)])

/-- The files of the project with their contents. Nothing is written. -/
def plan : Action Studio (Mapping Text) := do
  let project := (← get).project
  let sources ← onSources (SourceFile.generate project.features project.metadata
    project.settings.packageManager.name)
  let package ← Project.packageText project.features project.metadata
  let tests ← planTests
  return Mapping.merge (Mapping.set sources "package.json".toList package) tests

/-- Runs an operation on the files. -/
def onTree {α : Type} (action : Action FileTree α) : Action Studio α :=
  Action.zoom (·.tree) (fun tree studio => { studio with tree := tree }) action

/-- Writes files below a directory. A file that cannot be written does not keep the others from
being written; of several faults the first one is told. -/
def writeAll (root : Path) : Mapping Text → Action FileTree Unit
  | [] => pure ()
  | (name, content) :: rest => fun tree =>
    let (first, written) := FileTree.writeFile (root.child name) content tree
    let (others, all) := writeAll root rest written
    (first.bind fun _ => others, all)

/-- Makes the project in a directory; the root of the project must not be there yet. -/
def generate (parent : Path) : Action Studio Path := do
  let studio ← get
  let root := parent.child studio.project.settings.projectName
  if ← studio.tree.hasEntry root then throw (.projectExists root)
  let files ← plan
  onTree (FileTree.makeDirectories root false)
  onTree (writeAll root (files.mergeSort fun a b => Text.le a.1 b.1))
  return root

end Studio

end Stencil
