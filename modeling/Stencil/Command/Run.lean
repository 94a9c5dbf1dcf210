import Stencil.Bundled.Install
import Stencil.Command.Basic
import Stencil.Engine.Batch
import Stencil.Scaffold.Project
import Stencil.Value.Assignment

/-!
# Carrying out commands

Commands work on a file tree. They tell the user what they did, may write a text to the standard
output, and end with an exit code.
-/

namespace Stencil.Command

/-- What commands work on. -/
structure Shell where
  tree : FileTree
  messages : List Message
  /-- What was written to the standard output. -/
  output : Text

/-- Tells the user something. -/
def tell (message : Message) : Action Shell Unit :=
  modify fun shell => { shell with messages := shell.messages ++ [message] }

/-- Runs an operation of an engine. -/
def withEngine {α : Type} (engine : Engine) (action : Action Desk α) : Action Shell α :=
  Action.zoom (fun shell => ⟨engine, shell.tree, shell.messages⟩)
    (fun desk shell => { shell with tree := desk.tree, messages := desk.messages })
    action

/-- Runs an operation on a project. -/
def withProject {α : Type} (project : Project) (action : Action Studio α) : Action Shell α :=
  Action.zoom (fun shell => ⟨project, shell.tree, shell.messages⟩)
    (fun studio shell => { shell with tree := studio.tree, messages := studio.messages })
    action

/-- The context of a file, which must hold a mapping; without a file it is empty. -/
def readContext (tree : FileTree) : Option Text → Except Fault Context
  | none => .ok []
  | some file => do
    let text ← tree.readText (.ofText file)
    match Json.read text with
    | .ok (.mapping entries) => .ok entries
    | .ok _ => .error (.contextNotMapping file)
    | .error failure => .error (.notJson text failure)

/-- The context of a file with assignments carried out on it. Features are empty unless they are
given. -/
def loadContext (tree : FileTree) (file : Option Text) (assignments : List Text) :
    Except Fault Context := do
  let base ← readContext tree file
  let featured :=
    if Mapping.has base Context.featuresWord then base
    else Mapping.set base Context.featuresWord (.mapping [])
  let (result, ctx) := (assignments.forM Assignment.apply).runOn featured
  match result with
  | .ok () => .ok ctx
  | .error fault => .error fault

/-- Renders a directory of templates into another directory. -/
def renderDirectory (verbose : Bool) (directory : Path) (output : Text) (ctx : Context) :
    Action Shell Nat := do
  let settings : Engine.Settings := { templatesDir := directory, verbose := verbose }
  let engine ← Engine.ofSettings settings [] (← get).tree
  let written ← withEngine engine (Desk.renderAll [] (.ofText output) ctx [])
  tell (.success ("Rendered ".toList ++ Nat.toDigits 10 written.length
    ++ " template(s) into ".toList ++ output))
  return 0

/-- Renders a template into a file or to the standard output. -/
def renderFile (verbose : Bool) (o : RenderOptions) (ctx : Context) : Action Shell Nat := do
  let target := Path.ofText o.template
  let settings : Engine.Settings :=
    { templatesDir := (o.templatesDir.map Path.ofText).getD target.parent
      verbose := verbose }
  let tree := (← get).tree
  let engine ← Engine.ofSettings settings [] tree
  if target.text.contains '\x00' then throw .nullCharacter
  let text ← withEngine engine (Desk.processFile (target.resolve tree.here) ctx)
  match o.output with
  | some output => do
    let path := Path.ofText output
    Action.zoom (·.tree) (fun tree shell => { shell with tree := tree })
      (FileTree.writeFile path text)
    tell (.success ("Wrote ".toList ++ path.text))
  | none => modify fun shell => { shell with output := shell.output ++ text }
  return 0

/-- Renders. -/
def runRender (verbose : Bool) (o : RenderOptions) : Action Shell Nat := do
  let tree := (← get).tree
  let ctx ← loadContext tree o.context o.assignments
  let target := Path.ofText o.template
  if ← tree.hasDirectory target then
    match o.output with
    | none => do
      tell (.error "Rendering a directory requires --output".toList)
      return 1
    | some output => renderDirectory verbose target output ctx
  else renderFile verbose o ctx

/-- Checks. -/
def runLint (o : LintOptions) : Action Shell Nat := do
  let tree := (← get).tree
  let directory := Path.ofText o.directory
  if !(← tree.hasDirectory directory) then
    tell (.error ("Not a directory: ".toList ++ directory.text))
    return 1
  else
    match ← lintDirectory tree directory o.extension with
    | [] => do
      tell (.success ("No template issues found in ".toList ++ directory.text))
      return 0
    | mistakes => do
      for mistake in mistakes do
        tell (.warning mistake.text)
      tell (.total (Nat.toDigits 10 mistakes.length ++ " issue(s) found.".toList))
      return 1

/-- The names by which features can be given. -/
def featureNames : List Text := Features.fieldNames.flatten.map String.toList

/-- The settings that the options of a new project give. -/
def NewOptions.settings (o : NewOptions) (verbose : Bool) : Settings :=
  { projectName := o.name
    author := o.author
    description := o.description
    license := o.license
    outputDir := .ofText o.output
    packageManager := (PackageManager.choices.lookup o.packageManager).getD .npm
    engine := { verbose := verbose } }

/-- What a profile of tests adds to the features of a new project. -/
def NewOptions.extra (o : NewOptions) : Mapping Value :=
  match nonEmpty o.testProfile with
  | some profile => [("testing".toList, .bool true), ("testProfile".toList, .text profile)]
  | none => []

/-- Makes a new project. -/
def runNew (verbose : Bool) (o : NewOptions) : Action Shell Nat := do
  let unknown := o.features.filter (!featureNames.contains ·)
  if !unknown.isEmpty then
    tell (.error ("Unknown feature flag(s): ".toList ++ List.intercalate ", ".toList unknown))
    return 1
  else
    let features ← Settings.orFault "FeatureFlags" (Features.ofNames o.features o.extra)
    let settings := o.settings verbose
    let project ← Project.create settings features (← get).tree
    let root ← withProject project (Studio.generate settings.outputDir)
    let enabled := features.context.filterMap fun
      | (name, .bool true) => some name
      | _ => none
    let manager := settings.packageManager.name
    tell (.table "Project created".toList
      [("Project".toList, settings.projectName),
       ("Location".toList, root.text),
       ("Features".toList,
         if enabled.isEmpty then ['-'] else List.intercalate ", ".toList enabled),
       ("Package manager".toList, manager)])
    tell (.info ("Next: cd ".toList ++ root.text ++ " && ".toList ++ manager
      ++ " install".toList))
    return 0

/-- Carries out a command. -/
def runRequest (i : Invocation) : Action Shell Nat :=
  match i.request with
  | .render options => runRender i.verbose options
  | .lint options => runLint options
  | .create options => runNew i.verbose options

/-- Carries out a command line: the exit code, and what the command worked on after it. A fault is
told to the user. -/
def run (words : List Text) (shell : Shell) : Nat × Shell :=
  match read words with
  | .error .help => (0, shell)
  | .error .usage => (2, shell)
  | .ok invocation =>
    match runRequest invocation shell with
    | (.ok code, after) => (code, after)
    | (.error fault, after) =>
      (1, { after with messages := after.messages ++ [.error ("Error: ".toList ++ fault.message)] })

end Stencil.Command
