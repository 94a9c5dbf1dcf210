import Stencil.Schema.Field
import Stencil.Scaffold.TestProfile

/-!
# Features of a project

What a user selects for a new project, and how the project is described. Each field has the name
that templates use; some can be given by a second name in small letters.
-/

namespace Stencil

open Schema

/-- The features selected for a project. -/
structure Features where
  typescript : Bool := true
  tailwindcss : Bool := false
  redux : Bool := false
  reactRouter : Bool := false
  i18n : Bool := false
  eslint : Bool := false
  prettier : Bool := false
  husky : Bool := false
  githubActions : Bool := false
  vscode : Bool := false
  testing : Bool := false
  testProfile : Option TestProfile := none
deriving DecidableEq, Repr

namespace Features

/-- The names by which fields can be given. -/
def fieldNames : List (List String) :=
  [["typescript"], ["tailwindcss"], ["redux"], ["reactRouter", "react_router"], ["i18n"],
   ["eslint"], ["prettier"], ["husky"], ["githubActions", "github_actions"], ["vscode"],
   ["testing"], ["testProfile", "test_profile"]]

/-- Reads features from a mapping; other keys are ignored. -/
def ofRecord (record : Mapping Value) : Checked Features :=
  let flag (names : List String) (usual : Bool) := field record names usual readBool
  Features.mk
    <$> flag ["typescript"] true
    <*> flag ["tailwindcss"] false
    <*> flag ["redux"] false
    <*> flag ["reactRouter", "react_router"] false
    <*> flag ["i18n"] false
    <*> flag ["eslint"] false
    <*> flag ["prettier"] false
    <*> flag ["husky"] false
    <*> flag ["githubActions", "github_actions"] false
    <*> flag ["vscode"] false
    <*> flag ["testing"] false
    <*> field record ["testProfile", "test_profile"] none
      (readOptionalChoice TestProfile.choices)

/-- Reads features. -/
def ofValue (value : Value) : Checked Features := readRecord ofRecord value

/-- The features that a list names, with further fields on top. -/
def ofNames (names : List Text) (extra : Mapping Value) : Checked Features :=
  ofRecord (Mapping.merge (Mapping.ofEntries (names.map fun name => (name, .bool true))) extra)

/-- The features as templates see them. -/
def context (f : Features) : Context :=
  [("typescript".toList, .bool f.typescript),
   ("tailwindcss".toList, .bool f.tailwindcss),
   ("redux".toList, .bool f.redux),
   ("reactRouter".toList, .bool f.reactRouter),
   ("i18n".toList, .bool f.i18n),
   ("eslint".toList, .bool f.eslint),
   ("prettier".toList, .bool f.prettier),
   ("husky".toList, .bool f.husky),
   ("githubActions".toList, .bool f.githubActions),
   ("vscode".toList, .bool f.vscode),
   ("testing".toList, .bool f.testing),
   ("testProfile".toList, match f.testProfile with
     | some profile => .text profile.name
     | none => .null)]

/-- The profile of the tests: the standard one unless another is selected. -/
def profile (f : Features) : TestProfile := f.testProfile.getD .standard

end Features

/-- How a project is described. -/
structure Metadata where
  projectName : Text := "my-app".toList
  author : Text := []
  description : Text := []
  license : Text := "MIT".toList
deriving DecidableEq, Repr

namespace Metadata

/-- Reads a description from a mapping; other keys are ignored. -/
def ofRecord (record : Mapping Value) : Checked Metadata :=
  Metadata.mk
    <$> field record ["projectName", "project_name"] "my-app".toList readText
    <*> field record ["author"] [] readText
    <*> field record ["description"] [] readText
    <*> field record ["license"] "MIT".toList readText

/-- Reads a description. -/
def ofValue (value : Value) : Checked Metadata := readRecord ofRecord value

/-- The description as templates see it. -/
def context (m : Metadata) : Context :=
  [("projectName".toList, .text m.projectName), ("author".toList, .text m.author),
   ("description".toList, .text m.description), ("license".toList, .text m.license)]

end Metadata

end Stencil
