import Stencil.Template.Node
import Stencil.Value.Resolve
import Stencil.Value.Text
import Stencil.Html
import Stencil.Layout
import Stencil.Fault

/-!
# Rendering

A tree is rendered in a context: the text of its nodes, one after the other, with the diagnostics
that come up on the way. Partials are rendered in the context at hand. They may include each other
in any way, but only to a given depth. Where the trees of partials come from is left open here: a
function loads them, which may keep a state of its own.
-/

namespace Stencil.Template

/-- A rendered text with the diagnostics that came up. -/
structure Rendered where
  text : Text
  diagnostics : List Diagnostic
deriving DecidableEq, Repr

namespace Rendered

/-- Text without diagnostics. -/
def ofText (s : Text) : Rendered := ⟨s, []⟩

/-- Nothing. -/
def empty : Rendered := ofText []

/-- Two rendered texts, one after the other. -/
def append (a b : Rendered) : Rendered := ⟨a.text ++ b.text, a.diagnostics ++ b.diagnostics⟩

instance : Append Rendered := ⟨append⟩

/-- What stands for a partial that there is not. -/
def missingPartial (name : Text) : Rendered :=
  ⟨"<!-- Partial \"".toList ++ name ++ "\" not found -->".toList, [.missingPartial name]⟩

/-- What stands for a partial that would be included too deep. -/
def partialDepth (stack : List Text) (name : Text) : Rendered :=
  ⟨"<!-- Partial \"".toList ++ name ++ "\" exceeds nesting limit -->".toList,
    [.partialDepth stack name]⟩

end Rendered

variable {σ : Type}

/-- The text of the value of a path. -/
def pathText (ctx : Context) (path : Text) : Except Fault Text :=
  match (ctx.resolve path).text? with
  | some s => .ok s
  | none => .error .integerTooLong

/-- The names for the place of an item among `count`. -/
def placeNames (index count : Nat) : Mapping Value :=
  [("@index".toList, .int index), ("@first".toList, .bool (index == 0)),
   ("@last".toList, .bool (index + 1 == count))]

/-- The context in which the body of a loop is rendered for an item: the item, its place among
`count`, and its entries if it is a mapping. -/
def itemContext (ctx : Context) (item : Value) (index count : Nat) : Context :=
  let placed := Mapping.merge (ctx.set Context.thisWord item) (placeNames index count)
  match item with
  | .mapping entries => Mapping.merge placed entries
  | _ => placed

/-- Runs an action for every item with its index, from `index` on, and joins what they render. -/
def renderEach (body : Nat → Value → Action σ Rendered) : Nat → List Value → Action σ Rendered
  | _, [] => pure .empty
  | index, item :: rest => do
    let first ← body index item
    let more ← renderEach body (index + 1) rest
    return first ++ more

mutual

/-- Renders a node; `embed` renders a partial by its name. -/
def renderNode (embed : Text → Context → Action σ Rendered) : Node → Context → Action σ Rendered
  | .text s, _ => pure (.ofText s)
  | .escaped path, ctx => do return .ofText (Html.escape (← pathText ctx path))
  | .raw path, ctx => do return .ofText (← pathText ctx path)
  | .partialRef name, ctx => embed name ctx
  | .conditional path thenBody elseBody, ctx =>
    if (ctx.resolve path).isTruthy then renderNodes embed thenBody ctx
    else renderNodes embed elseBody ctx
  | .negated path body, ctx =>
    if (ctx.resolve path).isTruthy then pure .empty else renderNodes embed body ctx
  | .each path body, ctx =>
    match ctx.resolve path with
    | .list items =>
      renderEach
        (fun index item => renderNodes embed body (itemContext ctx item index items.length))
        0 items
    | _ => pure .empty
  | .within path body, ctx =>
    match ctx.resolve path with
    | .mapping entries => renderNodes embed body (Mapping.merge ctx entries)
    | _ => pure .empty

/-- Renders nodes one after the other. -/
def renderNodes (embed : Text → Context → Action σ Rendered) :
    List Node → Context → Action σ Rendered
  | [], _ => pure .empty
  | node :: rest, ctx => do
    let first ← renderNode embed node ctx
    let more ← renderNodes embed rest ctx
    return first ++ more

end

/-- Renders nodes with partials up to `depth` deep inside those on the stack; `load` gives the tree
of a partial, if there is one. -/
def renderTree (load : Text → Action σ (Option Parsed)) :
    (depth : Nat) → (stack : List Text) → List Node → Context → Action σ Rendered
  | 0, stack => renderNodes fun name _ => pure (.partialDepth stack name)
  | depth + 1, stack => renderNodes fun name ctx => do
    match ← load name with
    | none => return .missingPartial name
    | some parsed => do
      let inner ← renderTree load depth (stack ++ [name]) parsed.nodes ctx
      return ⟨inner.text, parsed.diagnostics ++ inner.diagnostics⟩

/-- Renders a template and tidies the text. -/
def render (load : Text → Action σ (Option Parsed)) (depth : Nat) (template : Parsed)
    (ctx : Context) : Action σ Rendered := do
  let inner ← renderTree load depth [] template.nodes ctx
  return ⟨Layout.tidy inner.text, template.diagnostics ++ inner.diagnostics⟩

end Stencil.Template
