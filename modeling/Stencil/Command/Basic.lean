import Stencil.Command.Arguments
import Stencil.Engine.Settings
import Stencil.Scaffold.Settings
import Stencil.Scaffold.TestProfile

/-!
# Commands

What a user can ask for: to render templates, to check them, or to make a new project.
-/

namespace Stencil.Command

/-- What to render, with what, and where to. -/
structure RenderOptions where
  template : Text
  /-- The file of the context. -/
  context : Option Text
  assignments : List Text
  templatesDir : Option Text
  output : Option Text

/-- What to check. -/
structure LintOptions where
  directory : Text
  extension : Text

/-- Which project to make. -/
structure NewOptions where
  name : Text
  output : Text
  features : List Text
  testProfile : Option Text
  packageManager : Text
  author : Text
  description : Text
  license : Text

/-- A command. -/
inductive Request
  | render (options : RenderOptions)
  | lint (options : LintOptions)
  | create (options : NewOptions)

/-- A command, and whether problems with templates are to be told. -/
structure Invocation where
  verbose : Bool
  request : Request

/-- A text unless it is empty. -/
def nonEmpty (s : Option Text) : Option Text := s.filter (!·.isEmpty)

/-- Reads what to render. -/
def readRender (words : List Text) : Except Stop Request := do
  let given ← readWords
    [.help, .valued "context" (some 'c'), .valued "set" (some 's'),
     .valued "templates-dir" none, .valued "output" (some 'o')] words
  match given.word with
  | none => .error .usage
  | some template =>
    return .render
      { template := template
        context := nonEmpty (given.value? "context")
        assignments := given.values "set"
        templatesDir := nonEmpty (given.value? "templates-dir")
        output := nonEmpty (given.value? "output") }

/-- Reads what to check: the bundled templates unless a directory is named. -/
def readLint (words : List Text) : Except Stop Request := do
  let given ← readWords [.help, .valued "extension" none] words
  return .lint
    { directory := given.word.getD Engine.bundledTemplates.text
      extension := given.valueOr "extension" ".hbs".toList }

/-- Reads which project to make. -/
def readNew (words : List Text) : Except Stop Request := do
  let given ← readWords
    [.help, .valued "output" (some 'o'), .valued "feature" (some 'f'),
     .choice "test-profile" (TestProfile.all.map TestProfile.name),
     .choice "package-manager" (PackageManager.all.map PackageManager.name),
     .valued "author" none, .valued "description" none, .valued "license" none] words
  match given.word with
  | none => .error .usage
  | some name =>
    return .create
      { name := name
        output := given.valueOr "output" ['.']
        features := given.values "feature"
        testProfile := given.value? "test-profile"
        packageManager := given.valueOr "package-manager" "npm".toList
        author := given.valueOr "author" []
        description := given.valueOr "description" []
        license := given.valueOr "license" "MIT".toList }

/-- Reads the words after the name of a command. -/
def readRequest (command : Text) (words : List Text) : Except Stop Request :=
  if command == "render".toList then readRender words
  else if command == "lint".toList then readLint words
  else if command == "new".toList then readNew words
  else .error .usage

/-- The options before a command. -/
def generalSpecs : List OptionSpec := [.help, .flag "verbose" (some 'v')]

/-- Reads options up to a command and then the command. -/
def readGeneral (given : Given) : List Text → Except Stop Invocation
  | [] => .error .usage
  | word :: rest =>
    match classify generalSpecs word with
    | .word command => do
      let request ← readRequest command rest
      if given.excess then .error .usage
      else return ⟨!(given.values "verbose").isEmpty, request⟩
    | .unknown => readGeneral { given with excess := true } rest
    | token =>
      match chain? generalSpecs token with
      | none => .error .usage
      | some chain => do
        let (given, _) ← given.addAll chain none
        readGeneral given rest

/-- Reads a command line. -/
def read (words : List Text) : Except Stop Invocation :=
  if (tokens generalSpecs words).any Token.isAmbiguous then .error .usage
  else readGeneral .empty words

end Stencil.Command
