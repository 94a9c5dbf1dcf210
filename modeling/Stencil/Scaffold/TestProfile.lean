import Stencil.Text.Basic

/-!
# Test profiles

A profile says which kinds of tests a project gets and how much of it they are to cover.
-/

namespace Stencil

/-- The kinds of tests. -/
inductive TestType
  | unit
  | redux
  | router
  | integration
  | i18n
  | accessibility
  | performance
  | tailwind
deriving DecidableEq, Repr

namespace TestType

/-- All kinds. -/
def all : List TestType :=
  [unit, redux, router, integration, i18n, accessibility, performance, tailwind]

/-- The name of a kind. -/
def name : TestType → Text
  | unit => "unit".toList
  | redux => "redux".toList
  | router => "router".toList
  | integration => "integration".toList
  | i18n => "i18n".toList
  | accessibility => "accessibility".toList
  | performance => "performance".toList
  | tailwind => "tailwind".toList

end TestType

/-- The profiles. -/
inductive TestProfile
  | minimum
  | standard
  | advanced
deriving DecidableEq, Repr

namespace TestProfile

/-- All profiles. -/
def all : List TestProfile := [minimum, standard, advanced]

/-- The name of a profile. -/
def name : TestProfile → Text
  | minimum => "minimum".toList
  | standard => "standard".toList
  | advanced => "advanced".toList

/-- What a profile is for. -/
def description : TestProfile → Text
  | minimum => "Smoke tests for the root component".toList
  | standard => "Unit and integration tests for every selected feature".toList
  | advanced => "Standard plus accessibility, performance and styling tests".toList

/-- The kinds of tests of a profile. -/
def testTypes : TestProfile → List TestType
  | minimum => [.unit]
  | standard => [.unit, .redux, .router, .integration, .i18n]
  | advanced => TestType.all

/-- The percentage of the project that the tests are to cover. -/
def coverageThreshold : TestProfile → Nat
  | minimum => 50
  | standard => 70
  | advanced => 85

/-- Profiles by name. -/
def choices : List (Text × TestProfile) := all.map fun profile => (profile.name, profile)

/-- The profile of a name; a name that there is not stands for the standard profile. -/
def ofName (name : Text) : TestProfile := (choices.lookup name).getD standard

/-- Whether a profile has tests of the kind that a text names. -/
def includes (profile : TestProfile) (type : Text) : Bool :=
  profile.testTypes.any (·.name == type)

end TestProfile

end Stencil
