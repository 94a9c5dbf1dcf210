import Stencil.Text.Basic

/-!
# Template trees

A template is a list of nodes: text that is copied, values that are interpolated, partials that are
included, and blocks with bodies of their own. What reading a template recovered from is kept beside
the tree as diagnostics.
-/

namespace Stencil.Template

/-- The kinds of blocks. -/
inductive BlockKind
  /-- The body is rendered with the entries of a mapping on top of the context. -/
  | within
  /-- The body is rendered once for every item of a list. -/
  | each
  /-- The body is rendered if a value is not truthy. -/
  | negated
  /-- One of two bodies is rendered, by whether a value is truthy. -/
  | conditional
deriving DecidableEq, Repr

/-- The kinds in the order in which they are tried. -/
def BlockKind.all : List BlockKind := [.within, .each, .negated, .conditional]

/-- The word that names a kind. -/
def BlockKind.word : BlockKind → Text
  | within => ['w', 'i', 't', 'h']
  | each => ['e', 'a', 'c', 'h']
  | negated => ['u', 'n', 'l', 'e', 's', 's']
  | conditional => ['i', 'f']

/-- The kind that a word names. -/
def BlockKind.ofWord? (word : Text) : Option BlockKind := all.find? (·.word == word)

/-- A node of a template. -/
inductive Node
  /-- Text that is copied. -/
  | text (s : Text)
  /-- A value whose text is escaped for HTML. -/
  | escaped (path : Text)
  /-- A value whose text is written as it is. -/
  | raw (path : Text)
  /-- A template of its own, by name. -/
  | partialRef (name : Text)
  | conditional (path : Text) (thenBody elseBody : List Node)
  | negated (path : Text) (body : List Node)
  | each (path : Text) (body : List Node)
  | within (path : Text) (body : List Node)
deriving Repr

/-- A problem that reading or rendering a template recovers from. -/
inductive Diagnostic
  /-- An opening tag without its closing tag. -/
  | unmatchedBlock (kind : BlockKind) (opener : Text)
  /-- A partial that there is not. -/
  | missingPartial (name : Text)
  /-- A partial that would be included too deep, with the names of those around it. -/
  | partialDepth (stack : List Text) (name : Text)
deriving DecidableEq, Repr

namespace Diagnostic

/-- The kind of a diagnostic. -/
def kind : Diagnostic → Text
  | unmatchedBlock .. => "unmatched_block".toList
  | missingPartial .. => "missing_partial".toList
  | partialDepth .. => "partial_depth".toList

/-- A diagnostic in words. -/
def message : Diagnostic → Text
  | unmatchedBlock kind opener =>
    "Unmatched \x7b\x7b#".toList ++ kind.word ++ "\x7d\x7d block: ".toList ++ opener
  | missingPartial name => "Partial \"".toList ++ name ++ "\" not found".toList
  | partialDepth _ name => "Partial \"".toList ++ name ++ "\" exceeds the nesting limit".toList

/-- What a diagnostic is about. -/
def detail : Diagnostic → Text
  | unmatchedBlock _ opener => opener
  | missingPartial name => name
  | partialDepth stack name => List.intercalate " > ".toList (stack ++ [name])

end Diagnostic

/-- The nodes of a template and the diagnostics of reading it. -/
structure Parsed where
  nodes : List Node
  diagnostics : List Diagnostic
deriving Repr

namespace Parsed

/-- Nothing. -/
def empty : Parsed := ⟨[], []⟩

/-- The nodes with text before them; text that a list of nodes begins with is one node with it. -/
def addText (s : Text) (p : Parsed) : Parsed :=
  match s, p.nodes with
  | [], _ => p
  | _, .text t :: rest => { p with nodes := .text (s ++ t) :: rest }
  | _, nodes => { p with nodes := .text s :: nodes }

/-- The nodes with a node before them. -/
def addNode (node : Node) (p : Parsed) : Parsed := { p with nodes := node :: p.nodes }

/-- The nodes with diagnostics that come before their own. -/
def report (found : List Diagnostic) (p : Parsed) : Parsed :=
  { p with diagnostics := found ++ p.diagnostics }

end Parsed

end Stencil.Template
