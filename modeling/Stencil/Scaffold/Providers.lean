import Stencil.Value.Text
import Stencil.Fault

/-!
# Contexts of features

Templates see the feature flags and what follows from them: the providers that wrap the
application, the outermost one first.
-/

namespace Stencil.Providers

/-- The flags that bring a provider, with its name, the outermost one first. -/
def all : List (Text × Text) :=
  [("i18n".toList, "i18n".toList), ("redux".toList, "redux".toList),
   ("reactRouter".toList, "router".toList)]

/-- The names of the providers that flags bring, in the order of wrapping. -/
def order (flags : Context) : List Text :=
  all.filterMap fun (flag, name) =>
    if (flags.get? flag).any Value.isPresent then some name else none

/-- The parts of an item in a list of pairs: those of a list, the characters of a text, the keys of
a mapping. -/
def parts? : Value → Option (List Value)
  | .list items => some items
  | .text s => some (s.map fun c => .text [c])
  | .mapping entries => some (entries.map fun entry => .text entry.1)
  | _ => none

/-- The key that the first part of a pair gives. -/
def key? : Value → Option Text
  | .text s => some s
  | .list _ | .mapping _ => none
  | value => value.text?

/-- The entry that an item in a list of pairs gives. -/
def entry (item : Value) : Except Fault (Text × Value) :=
  match parts? item with
  | none => .error .notPairs
  | some [first, second] =>
    match key? first with
    | some key => .ok (key, second)
    | none => .error .notPairs
  | some _ => .error .notPair

/-- The flags that a value gives: a mapping, a list of pairs, or anything absent for none. -/
def flagsOf (features : Value) : Except Fault Context :=
  if !features.isPresent then .ok []
  else
    match features with
    | .mapping flags => .ok flags
    | _ =>
      match parts? features with
      | some items => return Mapping.ofEntries (← items.mapM entry)
      | none => .error .notPairs

/-- The context of feature flags, with further entries on top. -/
def context (flags additional : Context) : Context :=
  let providers := order flags
  Mapping.merge
    [("features".toList, .mapping flags), ("hasProviders".toList, .bool !providers.isEmpty),
     ("providerOrder".toList, .list (providers.map .text))]
    additional

/-- What describes a project in its context: an absent entry has its usual value. -/
def describe (project : Context) : Context :=
  let entry (name : String) (usual : String) : Text × Value :=
    let value := (project.get? name.toList).getD .null
    (name.toList, if value.isPresent then value else .text usual.toList)
  [entry "projectName" "my-app", entry "author" "", entry "description" "",
   entry "license" "MIT"]

/-- The base context of an engine for a project with features. -/
def engineContext (flags project : Context) : Context := context flags (describe project)

end Stencil.Providers
