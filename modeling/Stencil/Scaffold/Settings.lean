import Stencil.Engine.Settings
import Stencil.FileTree.Basic
import Stencil.Schema.Field

/-!
# Settings

The settings of an engine and of a scaffolding run: how they are read from values and from the
environment, and how they are saved and loaded.
-/

namespace Stencil

open Schema

namespace Engine.Settings

/-- Reads the settings of an engine from a mapping; other keys are ignored. -/
def ofRecord (record : Mapping Value) : Checked Engine.Settings :=
  Engine.Settings.mk
    <$> field record ["templates_dir"] bundledTemplates readPath
    <*> field record ["partials_subdir"] "partials".toList readText
    <*> field record ["extension"] ".hbs".toList readExtension
    <*> field record ["max_partial_depth"] 32 readPositive
    <*> field record ["compile_cache_size"] 256 readPositive
    <*> field record ["verbose"] false readBool

/-- Reads the settings of an engine. -/
def ofValue (value : Value) : Checked Engine.Settings := readRecord ofRecord value

/-- The settings of an engine as a value. -/
def value (s : Engine.Settings) : Context :=
  [("templates_dir".toList, .text s.templatesDir.text),
   ("partials_subdir".toList, .text s.partialsSubdir),
   ("extension".toList, .text s.extension),
   ("max_partial_depth".toList, .int s.maxPartialDepth),
   ("compile_cache_size".toList, .int s.compileCacheSize),
   ("verbose".toList, .bool s.verbose)]

end Engine.Settings

/-- The package managers. -/
inductive PackageManager
  | npm
  | yarn
  | pnpm
  | bun
deriving DecidableEq, Repr

namespace PackageManager

/-- All package managers. -/
def all : List PackageManager := [npm, yarn, pnpm, bun]

/-- The name of a package manager. -/
def name : PackageManager → Text
  | npm => "npm".toList
  | yarn => "yarn".toList
  | pnpm => "pnpm".toList
  | bun => "bun".toList

/-- Package managers by name. -/
def choices : List (Text × PackageManager) := all.map fun manager => (manager.name, manager)

end PackageManager

/-- Settings of a scaffolding run. -/
structure Settings where
  projectName : Text := "my-app".toList
  author : Text := []
  description : Text := []
  license : Text := "MIT".toList
  /-- The directory in which the project is made. -/
  outputDir : Path := .here
  packageManager : PackageManager := .npm
  testTemplatesDir : Path := Engine.bundledTestTemplates
  engine : Engine.Settings := {}
deriving DecidableEq

namespace Settings

/-- The root of the project. -/
def projectPath (s : Settings) : Path := s.outputDir.child s.projectName

/-- Reads settings from a mapping; other keys are ignored. -/
def ofRecord (record : Mapping Value) : Checked Settings :=
  Settings.mk
    <$> field record ["project_name"] "my-app".toList readText
    <*> field record ["author"] [] readText
    <*> field record ["description"] [] readText
    <*> field record ["license"] "MIT".toList readText
    <*> field record ["output_dir"] .here readPath
    <*> field record ["package_manager"] .npm (readChoice PackageManager.choices)
    <*> field record ["test_templates_dir"] Engine.bundledTestTemplates readPath
    <*> field record ["engine"] {} Engine.Settings.ofValue

/-- Reads settings. -/
def ofValue (value : Value) : Checked Settings := readRecord ofRecord value

/-- The settings as a value. -/
def value (s : Settings) : Context :=
  [("project_name".toList, .text s.projectName),
   ("author".toList, .text s.author),
   ("description".toList, .text s.description),
   ("license".toList, .text s.license),
   ("output_dir".toList, .text s.outputDir.text),
   ("package_manager".toList, .text s.packageManager.name),
   ("test_templates_dir".toList, .text s.testTemplatesDir.text),
   ("engine".toList, .mapping s.engine.value)]

/-- What was read, or a fault that names the record. -/
def orFault {α : Type} (model : String) : Checked α → Except Fault α
  | .valid a => .ok a
  | .refused issues => .error (.invalid model.toList issues)

/-- The text in which settings are saved. -/
def saved (s : Settings) : Except Fault Text :=
  match Json.write? .record 0 (.mapping s.value) with
  | some text => .ok text
  | none => .error .integerTooLong

/-- Saves settings in a file. -/
def save (s : Settings) (path : Path) : Action FileTree Unit := do
  FileTree.makeDirectories path.parent true
  Action.changing (·.writeText path (← s.saved))

/-- Reads settings from the text in which they are saved. -/
def ofSaved (text : Text) : Checked Settings :=
  match Json.readBy .record text with
  | .ok value => ofValue value
  | .error _ => .refuse .jsonInvalid

/-- Loads settings from a file. -/
def load (tree : FileTree) (path : Path) : Except Fault Settings := do
  orFault "Settings" (ofSaved (← tree.readText path))

/-- The entries of a record that the environment gives. The variables begin with the name of the
program; one that is empty gives no entry. -/
def entriesOf (program : Text) (environment : Mapping Text) (names : List (String × String)) :
    Mapping Value :=
  names.filterMap fun (name, key) =>
    match environment.get? (program ++ name.toList) with
    | none | some [] => none
    | some text => some (key.toList, .text text)

/-- Whether a variable says yes. -/
def saysYes (text : Text) : Bool :=
  ["1", "true", "yes"].contains (String.ofList (Text.lowerAscii text))

/-- The settings that the environment gives. Those of the engine are read first. -/
def ofEnvironment (program : Text) (environment : Mapping Text) : Except Fault Settings := do
  let verbose : Mapping Value :=
    match environment.get? (program ++ "_VERBOSE".toList) with
    | none | some [] => []
    | some text => [("verbose".toList, .bool (saysYes text))]
  let engine ← orFault "EngineSettings" (Engine.Settings.ofRecord
    (entriesOf program environment
      [("_TEMPLATES_DIR", "templates_dir"), ("_TEMPLATE_EXTENSION", "extension")] ++ verbose))
  let settings ← orFault "Settings" (ofRecord
    (entriesOf program environment
      [("_PROJECT_NAME", "project_name"), ("_AUTHOR", "author"), ("_LICENSE", "license"),
       ("_OUTPUT_DIR", "output_dir"), ("_PACKAGE_MANAGER", "package_manager"),
       ("_TEST_TEMPLATES_DIR", "test_templates_dir")]))
  return { settings with engine := engine }

end Settings

end Stencil
