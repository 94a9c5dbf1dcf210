import Stencil.Scaffold.Features
import Stencil.Scaffold.PackageName

/-!
# Package descriptions

The description of a project for its package manager: what it depends on, and the scripts that
belong to its features.
-/

namespace Stencil.PackageJson

/-- Packages with their versions. -/
abbrev Packages := List (Text × Text)

/-- Packages from names and versions. -/
def packages (entries : List (String × String)) : Packages :=
  entries.map fun (name, version) => (name.toList, version.toList)

/-- What every project depends on. -/
def baseDependencies : Packages :=
  packages [("react", "^19.0.0"), ("react-dom", "^19.0.0")]

/-- What the work on every project depends on. -/
def baseDevDependencies : Packages :=
  packages [("@vitejs/plugin-react", "^4.3.4"), ("vite", "^6.0.0")]

/-- What features add: whether one is selected, what the project depends on with it, and what the
work on it depends on. -/
def additions (f : Features) : List (Bool × Packages × Packages) :=
  [(f.typescript, [], packages
      [("typescript", "~5.6.2"), ("@types/react", "^19.0.0"), ("@types/react-dom", "^19.0.0")]),
   (f.tailwindcss, [], packages
      [("tailwindcss", "^4.0.0"), ("@tailwindcss/vite", "^4.0.0")]),
   (f.redux, packages
      [("@reduxjs/toolkit", "^2.5.0"), ("react-redux", "^9.2.0")], []),
   (f.reactRouter, packages [("react-router-dom", "^7.1.0")], []),
   (f.i18n, packages
      [("i18next", "^24.2.0"), ("react-i18next", "^15.4.0"),
       ("i18next-browser-languagedetector", "^8.0.2")], []),
   (f.eslint, [], packages
      [("eslint", "^9.17.0"), ("@eslint/js", "^9.17.0"),
       ("eslint-plugin-react-hooks", "^5.1.0"), ("eslint-plugin-react-refresh", "^0.4.16"),
       ("globals", "^15.14.0")]),
   (f.prettier, [], packages [("prettier", "^3.4.2")]),
   (f.husky, [], packages [("husky", "^9.1.7"), ("lint-staged", "^15.3.0")]),
   (f.testing, [], packages
      [("vitest", "^2.1.8"), ("@testing-library/react", "^16.1.0"),
       ("@testing-library/jest-dom", "^6.6.3"), ("jsdom", "^25.0.1")])]

/-- The scripts of a project. -/
def scripts (f : Features) : Packages :=
  let build := if f.typescript then "tsc -b && vite build" else "vite build"
  packages (
    [("dev", "vite"), ("build", build), ("preview", "vite preview")]
      ++ (if f.eslint then [("lint", "eslint .")] else [])
      ++ (if f.prettier then [("format", "prettier --write .")] else [])
      ++ (if f.husky then [("prepare", "husky")] else [])
      ++ (if f.testing then [("test", "vitest"), ("test:coverage", "vitest run --coverage")]
        else []))

/-- Texts by name, as a value. -/
def textMapping (entries : Packages) : Value :=
  .mapping (entries.map fun (name, text) => (name, .text text))

/-- Packages in the order of their names, as a value. -/
def sorted (entries : Packages) : Value :=
  textMapping (entries.mergeSort fun a b => Text.le a.1 b.1)

/-- The description of a project with features. -/
def build (f : Features) (m : Metadata) : Context :=
  let selected := (additions f).filter (·.1)
  let optional (name : String) (s : Text) : Context :=
    if s.isEmpty then [] else [(name.toList, .text s)]
  [("name".toList, .text (PackageName.sanitize m.projectName)),
   ("private".toList, .bool true),
   ("version".toList, .text "0.0.0".toList),
   ("type".toList, .text "module".toList),
   ("scripts".toList, textMapping (scripts f)),
   ("dependencies".toList, sorted (baseDependencies ++ selected.flatMap (·.2.1))),
   ("devDependencies".toList, sorted (baseDevDependencies ++ selected.flatMap (·.2.2)))]
    ++ optional "description" m.description ++ optional "author" m.author
    ++ optional "license" m.license

end Stencil.PackageJson
