import Stencil.Engine.Cache
import Stencil.Engine.Partials
import Stencil.Engine.Settings
import Stencil.Message
import Stencil.Template.Render

/-!
# Template engines

An engine renders templates on a base context. It reads template and partial files, and keeps the
sources of partials and the trees of templates from one rendering to the next.
-/

namespace Stencil

/-- An engine. -/
structure Engine where
  settings : Engine.Settings
  /-- What every rendering starts from. -/
  base : Context
  partials : Partials
  cache : Cache

/-- An engine at work: the files it reads, and the messages so far. -/
structure Desk where
  engine : Engine
  tree : FileTree
  messages : List Message

namespace Engine

/-- An engine with a store of partials. -/
def withPartials (settings : Settings) (base : Context) (partials : Partials) :
    Except Fault Engine :=
  if Cache.countLimit < settings.compileCacheSize then .error .cacheTooLarge
  else .ok ⟨settings, base, partials, .empty settings.compileCacheSize⟩

/-- An engine with the partials of its directory. -/
def ofSettings (settings : Settings) (base : Context) (tree : FileTree) : Except Fault Engine := do
  withPartials settings base
    (← Partials.ofDirectory tree settings.partialsDir settings.extension)

/-- The engine with entries written on top of its base context. -/
def extendBase (engine : Engine) (ctx : Context) : Engine :=
  { engine with base := Mapping.merge engine.base ctx }

/-- The path of a template file, seen from the directory of templates. -/
def templatePath (engine : Engine) (path : Path) : Path :=
  engine.settings.templatesDir.join path

end Engine

namespace Desk

/-- Tells the user something. -/
def tell (message : Message) : Action Desk Unit :=
  modify fun desk => { desk with messages := desk.messages ++ [message] }

/-- Runs an operation on the files. -/
def onTree {α : Type} (action : Action FileTree α) : Action Desk α :=
  Action.zoom (·.tree) (fun tree desk => { desk with tree := tree }) action

/-- Uses the tree of a source. -/
def compile (source : Text) : Action Desk Kept :=
  modifyGet fun desk =>
    let (kept, cache) := desk.engine.cache.use source
    (kept, { desk with engine := { desk.engine with cache := cache } })

/-- The source of a partial, if there is one. -/
def loadSource (name : Text) : Action Desk (Option Text) := do
  let desk ← get
  let (source, partials) ← desk.engine.partials.load desk.tree name
  set { desk with engine := { desk.engine with partials := partials } }
  return source

/-- The tree of a partial, if there is one. -/
def loadPartial (name : Text) : Action Desk (Option Template.Parsed) := do
  match ← loadSource name with
  | none => return none
  | some source => return some (← compile source).tree

/-- Renders a template on the base context with entries on top. -/
def render (template : Text) (ctx : Context) : Action Desk Template.Rendered := do
  let engine := (← get).engine
  let kept ← compile template
  let rendered ← Template.render loadPartial engine.settings.maxPartialDepth kept.tree
    (Mapping.merge engine.base ctx)
  if engine.settings.verbose then
    for diagnostic in rendered.diagnostics do
      tell (.warning ("Template warning: ".toList ++ diagnostic.message))
  return rendered

/-- The text of a rendered template. -/
def process (template : Text) (ctx : Context) : Action Desk Text := do
  return (← render template ctx).text

/-- Whether there is a template file at a path. -/
def hasTemplate (path : Path) : Action Desk Bool := do
  let desk ← get
  desk.tree.hasFile (desk.engine.templatePath path)

/-- The text of a rendered template file. -/
def processFile (path : Path) (ctx : Context) : Action Desk Text := do
  let desk ← get
  let full := desk.engine.templatePath path
  if ← desk.tree.hasFile full then
    let source ← desk.tree.readText full
    process source ctx
  else throw (.templateMissing full)

/-- Hands in the source of a partial; whether it was taken. -/
def register (name source : Text) : Action Desk Bool :=
  modifyGet fun desk =>
    let (taken, partials) := desk.engine.partials.register name source
    (taken, { desk with engine := { desk.engine with partials := partials } })

end Desk

end Stencil
