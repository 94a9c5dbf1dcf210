import Stencil.Path

/-!
# Engine settings

Where an engine finds its templates and partials, and its limits.
-/

namespace Stencil.Engine

/-- Where the templates are installed that come with the library. -/
def bundledHome : Path := Path.ofText "/usr/share/stencil".toList

/-- The templates of application sources. -/
def bundledTemplates : Path := bundledHome.child "templates/dynamic".toList

/-- The templates of tests. -/
def bundledTestTemplates : Path := bundledHome.child "templates/test-templates".toList

/-- Settings of an engine. -/
structure Settings where
  templatesDir : Path := bundledTemplates
  /-- The directory of partials, seen from that of templates. -/
  partialsSubdir : Text := "partials".toList
  extension : Text := ".hbs".toList
  /-- How deep partials may include partials. -/
  maxPartialDepth : Nat := 32
  /-- How many trees of templates are kept. -/
  compileCacheSize : Nat := 256
  /-- Whether problems that a rendering recovered from are told to the user. -/
  verbose : Bool := false
deriving DecidableEq

/-- The directory of partials. -/
def Settings.partialsDir (s : Settings) : Path := s.templatesDir.child s.partialsSubdir

end Stencil.Engine
