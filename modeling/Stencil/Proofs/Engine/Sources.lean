import Stencil.Engine.Basic
import Stencil.Proofs.Template.PartialDepth

/-!
# What an engine renders

An engine keeps the sources of partials and the trees of templates. Neither changes what it renders:
a source that is kept is the one that would be read, and a tree that is kept is the one that would
be made. So an engine renders what its files, its settings and its base context say, whatever it has
kept so far, and every use of it leaves that as it was.
-/

namespace Stencil

open Template (Sources Rendered parse)

/-! ### The cache of trees -/

/-- Every tree in a cache is that of its source. -/
def Cache.Sound (c : Cache) : Prop := ∀ kept ∈ c.slots, kept.tree = parse kept.source

/-- A cache that holds nothing is sound. -/
theorem Cache.sound_empty (capacity : Nat) : (empty capacity).Sound := by
  intro kept h
  exact absurd h List.not_mem_nil

/-- Using a sound cache gives the tree of the source. -/
theorem Cache.Sound.tree_use {c : Cache} (h : c.Sound) (source : Text) :
    (c.use source).1.tree = parse source := by
  unfold use
  split
  · next kept hfind =>
    have hsource : kept.source = source := by simpa using List.find?_some hfind
    rw [← hsource]
    exact h kept (List.mem_of_find?_eq_some hfind)
  · rfl

/-- A sound cache stays sound when it is used. -/
theorem Cache.Sound.use {c : Cache} (h : c.Sound) (source : Text) : (c.use source).2.Sound := by
  unfold Cache.use
  split
  · next kept hfind =>
    intro other hother
    rcases List.mem_cons.mp hother with rfl | hother
    · exact h other (List.mem_of_find?_eq_some hfind)
    · exact h other ((List.mem_filter.mp hother).1)
  · intro other hother
    rcases List.mem_cons.mp (List.mem_of_mem_take hother) with rfl | hother
    · rfl
    · exact h other hother

/-! ### The store of partials -/

/-- The source that a store gives for a name. -/
def Partials.source (p : Partials) (tree : FileTree) : Sources := fun name =>
  (p.load tree name).map (·.1)

/-- The source in a file, if there is the file. -/
def FileTree.source (tree : FileTree) (path : Path) : Except Fault (Option Text) := do
  if ← tree.hasFile path then return some (← tree.readText path) else return none

/-- The source for a name is the one that is kept, or else the one in its file. -/
theorem Partials.source_eq (p : Partials) (tree : FileTree) (name : Text) :
    p.source tree name =
      match p.sources.get? name, p.pathOf? name with
      | some source, _ => .ok (some source)
      | none, none => .ok none
      | none, some path => tree.source path := by
  unfold source load
  cases p.sources.get? name with
  | some source => rfl
  | none =>
    cases p.pathOf? name with
    | none => rfl
    | some path =>
      change Except.map _ (tree.hasFile path >>= _) = tree.hasFile path >>= _
      rcases tree.hasFile path with _ | _ | _
      · rfl
      · rfl
      · change Except.map _ (tree.readText path >>= _) = tree.readText path >>= _
        cases tree.readText path <;> rfl

/-- What loading does to a store: it stays as it was and gives what it has kept for the name, or it
keeps the source of a name that had none, and the path under which it was read. -/
theorem Partials.load_cases {p after : Partials} {tree : FileTree} {name : Text}
    {found : Option Text} (h : p.load tree name = .ok (found, after)) :
    (found = p.sources.get? name ∧ after = p) ∨
      p.sources.get? name = none ∧ ∃ source path, p.pathOf? name = some path ∧
        found = some source ∧ after = { p with
          paths := if p.paths.has name then p.paths else p.paths.set name path
          sources := p.sources.set name source } := by
  unfold load at h
  split at h
  · next source hkept =>
    obtain ⟨rfl, rfl⟩ := Prod.mk.inj (Except.ok.inj h)
    exact Or.inl ⟨hkept.symm, rfl⟩
  · next hkept =>
    split at h
    · obtain ⟨rfl, rfl⟩ := Prod.mk.inj (Except.ok.inj h)
      exact Or.inl ⟨hkept.symm, rfl⟩
    · next path hpath =>
      cases hfile : tree.hasFile path with
      | error =>
        rw [hfile] at h
        contradiction
      | ok present =>
        rw [hfile] at h
        cases present with
        | false =>
          obtain ⟨rfl, rfl⟩ := Prod.mk.inj (Except.ok.inj h)
          exact Or.inl ⟨hkept.symm, rfl⟩
        | true =>
          change (tree.readText path >>= _) = _ at h
          cases hread : tree.readText path with
          | error =>
            rw [hread] at h
            contradiction
          | ok source =>
            rw [hread] at h
            obtain ⟨rfl, rfl⟩ := Prod.mk.inj (Except.ok.inj h)
            exact Or.inr ⟨hkept, source, path, hpath, rfl, rfl⟩

/-- Loading a partial changes no path under which partials are looked for. -/
theorem Partials.pathOf?_load {p after : Partials} {tree : FileTree} {name : Text}
    {found : Option Text} (h : p.load tree name = .ok (found, after)) :
    after.pathOf? = p.pathOf? := by
  rcases load_cases h with ⟨-, rfl⟩ | ⟨-, source, path, hpath, -, rfl⟩
  · rfl
  · funext other
    cases hknown : p.paths.has name with
    | true => rfl
    | false =>
      by_cases hother : other = name
      · subst hother
        rw [hpath]
        simp [pathOf?]
      · simp [pathOf?, hother]

/-- Loading a partial changes no source that a store gives. -/
theorem Partials.source_load {p after : Partials} {tree : FileTree} {name : Text}
    {found : Option Text} (h : p.load tree name = .ok (found, after)) :
    after.source tree = p.source tree := by
  have hname : p.source tree name = .ok found := by rw [source, h]; rfl
  have hpaths := pathOf?_load h
  rcases load_cases h with ⟨-, rfl⟩ | ⟨-, source, path, -, rfl, rfl⟩
  · rfl
  · funext other
    by_cases hother : other = name
    · subst hother
      simp [hname, source_eq]
    · simp [source_eq, hother, hpaths]

/-! ### The engine at work -/

/-- The source of a partial for an engine at work. -/
def Desk.source (desk : Desk) : Sources := desk.engine.partials.source desk.tree

/-- What a use of an engine leaves as it was: the settings, the base context, the files and the
sources of partials, and that the trees that are kept are those of their sources. -/
structure Desk.Steady (start now : Desk) : Prop where
  settings : now.engine.settings = start.engine.settings
  base : now.engine.base = start.engine.base
  tree : now.tree = start.tree
  source : now.source = start.source
  sound : now.engine.cache.Sound

variable {start now : Desk}

/-- An engine with a sound cache is steady before it is used. -/
theorem Desk.steady_refl {desk : Desk} (h : desk.engine.cache.Sound) : desk.Steady desk :=
  ⟨rfl, rfl, rfl, rfl, h⟩

/-- Using the tree of a source gives its tree and leaves an engine steady. -/
theorem Desk.steady_compile (h : start.Steady now) (source : Text) :
    ∃ kept after, compile source now = (.ok kept, after) ∧ kept.tree = parse source ∧
      start.Steady after :=
  ⟨_, _, rfl, h.sound.tree_use source, h.settings, h.base, h.tree, h.source, h.sound.use source⟩

/-- Loading a source is loading it from the store and keeping the store. -/
theorem Desk.loadSource_run (name : Text) (desk : Desk) :
    loadSource name desk =
      match desk.engine.partials.load desk.tree name with
      | .ok (found, partials) =>
        (.ok found, { desk with engine := { desk.engine with partials := partials } })
      | .error fault => (.error fault, desk) := by
  change (ExceptT.bindCont _ _ : StateM Desk _) desk = _
  cases desk.engine.partials.load desk.tree name <;> rfl

/-- Loading a source gives what the store gives and leaves an engine steady. -/
theorem Desk.steady_loadSource (h : start.Steady now) (name : Text) :
    ∃ after, loadSource name now = (start.source name, after) ∧ start.Steady after := by
  have hsource : (now.engine.partials.load now.tree name).map (·.1) = start.source name := by
    rw [← h.source]
    rfl
  have hrun := loadSource_run name now
  cases hload : now.engine.partials.load now.tree name with
  | error fault =>
    rw [hload] at hsource hrun
    refine ⟨now, ?_, h⟩
    rw [hrun, ← hsource]
    rfl
  | ok loaded =>
    obtain ⟨found, partials⟩ := loaded
    rw [hload] at hsource hrun
    have hkept : partials.source now.tree = start.source := by
      rw [Partials.source_load hload, ← h.source]
      rfl
    refine ⟨{ now with engine := { now.engine with partials := partials } }, ?_,
      h.settings, h.base, h.tree, hkept, h.sound⟩
    rw [hrun, ← hsource]
    rfl

/-- Loading the tree of a partial agrees with loading it from the sources of the start. -/
theorem Desk.agrees_loadPartial (name : Text) :
    Action.Agrees (fun (now : Desk) (_ : Unit) => start.Steady now) (loadPartial name)
      (Template.loadFrom start.source name) := by
  intro now _ h
  obtain ⟨after, hload, hsteady⟩ := steady_loadSource h name
  have hrun : ∃ last, loadPartial name now = ((start.source name).map (·.map parse), last) ∧
      start.Steady last := by
    rw [loadPartial, Action.bind_run, hload]
    rcases start.source name with fault | _ | source
    · exact ⟨after, rfl, hsteady⟩
    · exact ⟨after, rfl, hsteady⟩
    · obtain ⟨kept, last, hcompile, htree, hlast⟩ := steady_compile hsteady source
      refine ⟨last, ?_, hlast⟩
      change (compile source >>= fun kept => pure (some kept.tree)) after = _
      rw [Action.bind_run, hcompile]
      exact congrArg (fun tree => (Except.ok (some tree), last)) htree
  obtain ⟨last, hlast, hsteady⟩ := hrun
  rw [hlast]
  exact ⟨rfl, hsteady⟩

/-- Tells the user about diagnostics. -/
def Desk.tellAll (diagnostics : List Template.Diagnostic) : Action Desk PUnit :=
  forIn diagnostics PUnit.unit fun diagnostic _ => do
    tell (.warning ("Template warning: ".toList ++ diagnostic.message))
    return .yield PUnit.unit

/-- What follows a rendering: the user is told about its diagnostics, if the settings ask for it. -/
def Desk.report (verbose : Bool) (rendered : Rendered) : Action Desk Rendered := do
  if verbose then
    tellAll rendered.diagnostics
  return rendered

/-- A rendering compiles the template, renders its tree and reports on it. -/
theorem Desk.render_run (template : Text) (ctx : Context) (desk : Desk) :
    render template ctx desk = (compile template >>= fun kept =>
      Template.render loadPartial desk.engine.settings.maxPartialDepth kept.tree
        (Mapping.merge desk.engine.base ctx) >>= report desk.engine.settings.verbose) desk := rfl

/-- Telling the user about diagnostics does not fail, and changes nothing but the messages. -/
theorem Desk.exists_messages_of_tellAll (diagnostics : List Template.Diagnostic) (desk : Desk) :
    ∃ messages,
      tellAll diagnostics desk = (.ok PUnit.unit, { desk with messages := messages }) := by
  induction diagnostics generalizing desk with
  | nil => exact ⟨desk.messages, rfl⟩
  | cons diagnostic rest ih =>
    obtain ⟨messages, hrest⟩ := ih { desk with messages :=
      desk.messages ++ [.warning ("Template warning: ".toList ++ diagnostic.message)] }
    refine ⟨messages, ?_⟩
    rw [tellAll, List.forIn_cons, Action.bind_run]
    exact hrest

/-- A report gives back the rendering, and changes nothing but the messages. -/
theorem Desk.exists_messages_of_report (verbose : Bool) (rendered : Rendered) (desk : Desk) :
    ∃ messages,
      report verbose rendered desk = (.ok rendered, { desk with messages := messages }) := by
  cases verbose with
  | false => exact ⟨desk.messages, rfl⟩
  | true =>
    obtain ⟨messages, htold⟩ := exists_messages_of_tellAll rendered.diagnostics desk
    refine ⟨messages, ?_⟩
    change (tellAll rendered.diagnostics >>= fun _ => pure rendered) desk = _
    rw [Action.bind_run, htold]
    rfl

/-- Rendering gives what the sources, the settings and the base context say, and leaves an engine
steady. -/
theorem Desk.steady_render (h : start.Steady now) (template : Text) (ctx : Context) :
    ∃ after, render template ctx now =
        (Template.outcome start.source start.engine.settings.maxPartialDepth template
          (Mapping.merge start.engine.base ctx), after) ∧ start.Steady after := by
  obtain ⟨kept, compiled, hcompile, htree, hcompiled⟩ := steady_compile h template
  obtain ⟨hresult, hrendered⟩ := Template.render_agrees agrees_loadPartial
    start.engine.settings.maxPartialDepth (parse template) (Mapping.merge start.engine.base ctx)
    compiled () hcompiled
  change _ = Template.outcome start.source start.engine.settings.maxPartialDepth template
    (Mapping.merge start.engine.base ctx) at hresult
  rw [render_run, Action.bind_run, hcompile]
  change ∃ after, (Template.render loadPartial _ kept.tree _ >>= report _) compiled = _ ∧ _
  rw [h.settings, h.base, htree, Action.bind_run]
  rcases hrender : Template.render loadPartial start.engine.settings.maxPartialDepth
    (parse template) (Mapping.merge start.engine.base ctx) compiled with ⟨fault | rendered, last⟩
  · rw [hrender] at hresult hrendered
    exact ⟨last, congrArg (·, last) hresult, hrendered⟩
  · rw [hrender] at hresult hrendered
    obtain ⟨messages, hreport⟩ :=
      exists_messages_of_report start.engine.settings.verbose rendered last
    refine ⟨{ last with messages := messages }, ?_,
      hrendered.settings, hrendered.base, hrendered.tree, hrendered.source, hrendered.sound⟩
    rw [← hresult]
    exact hreport

/-- Rendering a template to a text gives what the sources, the settings and the base context say,
and leaves an engine steady. -/
theorem Desk.steady_process (h : start.Steady now) (template : Text) (ctx : Context) :
    ∃ after, process template ctx now =
        ((Template.outcome start.source start.engine.settings.maxPartialDepth template
          (Mapping.merge start.engine.base ctx)).map (·.text), after) ∧ start.Steady after := by
  obtain ⟨after, hrender, hafter⟩ := steady_render h template ctx
  refine ⟨after, ?_, hafter⟩
  rw [process, Action.bind_run, hrender]
  cases Template.outcome start.source start.engine.settings.maxPartialDepth template
    (Mapping.merge start.engine.base ctx) <;> rfl

/-! ### What a rendering leaves alone -/

/-- What is seen of an engine at work stays when the engine says something, uses a tree or loads a
source. -/
structure Desk.KeptInUse {τ : Type} (view : Desk → τ) : Prop where
  messages : ∀ (desk : Desk) messages, view { desk with messages := messages } = view desk
  compile : ∀ source, Action.Keeps view (compile source)
  loadSource : ∀ name, Action.Keeps view (loadSource name)

namespace Desk.KeptInUse

variable {τ : Type} {view : Desk → τ}

/-- What is kept in use is kept when a partial is loaded. -/
theorem loadPartial (h : KeptInUse view) (name : Text) : Action.Keeps view (loadPartial name) := by
  refine (h.loadSource name).bind fun found => ?_
  cases found with
  | none => exact Action.keeps_pure _
  | some source => exact (h.compile source).bind fun _ => Action.keeps_pure _

/-- What is kept in use is kept when a template is rendered. -/
theorem render (h : KeptInUse view) (template : Text) (ctx : Context) :
    Action.Keeps view (render template ctx) := by
  intro desk
  have hrender (depth : Nat) (parsed : Template.Parsed) (ctx : Context) :
      Action.Keeps view (Template.render Desk.loadPartial depth parsed ctx) :=
    Action.keeps_iff_agrees.mpr fun seen => Template.render_agrees
      (fun name => Action.keeps_iff_agrees.mp (h.loadPartial name) seen) depth parsed ctx
  have hreport (verbose : Bool) (rendered : Rendered) :
      Action.Keeps view (report verbose rendered) := by
    intro desk
    obtain ⟨messages, hrun⟩ := exists_messages_of_report verbose rendered desk
    rw [hrun]
    exact h.messages desk messages
  rw [render_run]
  exact ((h.compile template).bind fun kept =>
    (hrender _ kept.tree _).bind fun rendered => hreport _ rendered) desk

/-- What is kept in use is kept when a template is rendered to a text. -/
theorem process (h : KeptInUse view) (template : Text) (ctx : Context) :
    Action.Keeps view (process template ctx) :=
  (h.render template ctx).bind fun _ => Action.keeps_pure _

/-- What is kept in use is kept when a template is looked for. -/
theorem hasTemplate (path : Path) : Action.Keeps view (hasTemplate path) :=
  Action.keeps_get_bind fun desk => Action.keeps_lift (desk.tree.hasFile _) desk

/-- What is kept in use is kept when a template file is rendered. -/
theorem processFile (h : KeptInUse view) (path : Path) (ctx : Context) :
    Action.Keeps view (processFile path ctx) := by
  refine Action.keeps_get_bind fun desk => ?_
  refine ((Action.keeps_lift _).bind fun present => ?_) desk
  split
  · exact (Action.keeps_lift _).bind fun source => h.process source ctx
  · exact Action.keeps_throw _

end Desk.KeptInUse

/-! ### New engines -/

/-- A new engine, on a store that is handed in or else on the partials of its directory. -/
def Engine.build (settings : Settings) (base : Context) (tree : FileTree) :
    Option Partials → Except Fault Engine
  | some partials => withPartials settings base partials
  | none => ofSettings settings base tree

/-- The store of partials with which an engine begins. -/
def Engine.firstStore (settings : Settings) (tree : FileTree) :
    Option Partials → Except Fault Partials
  | some partials => .ok partials
  | none => Partials.ofDirectory tree settings.partialsDir settings.extension

/-- What a new engine renders. -/
def Engine.renderNew (settings : Settings) (base : Context) (tree : FileTree)
    (store? : Option Partials) (template : Text) (ctx : Context) : Except Fault Rendered := do
  let engine ← build settings base tree store?
  (Desk.render template ctx ⟨engine, tree, []⟩).1

variable {settings : Engine.Settings} {base : Context} {tree : FileTree}
  {store? : Option Partials} {engine : Engine}

/-- An engine on a store is built unless its cache is too large. -/
theorem Engine.withPartials_eq_ok {partials : Partials} :
    withPartials settings base partials = .ok engine ↔
      settings.compileCacheSize ≤ Cache.countLimit ∧
      engine = ⟨settings, base, partials, .empty settings.compileCacheSize⟩ := by
  unfold withPartials
  split
  · next hlarge =>
    constructor
    · intro h
      contradiction
    · rintro ⟨hsize, -⟩
      omega
  · next hsize =>
    rw [Except.ok.injEq]
    constructor
    · rintro rfl
      exact ⟨Nat.le_of_not_lt hsize, rfl⟩
    · rintro ⟨-, rfl⟩
      rfl

/-- An engine is built if there is a store of partials and its cache is not too large. -/
theorem Engine.build_eq_ok :
    build settings base tree store? = .ok engine ↔
      ∃ partials, firstStore settings tree store? = .ok partials ∧
        settings.compileCacheSize ≤ Cache.countLimit ∧
        engine = ⟨settings, base, partials, .empty settings.compileCacheSize⟩ := by
  have hbuild : build settings base tree store? =
      firstStore settings tree store? >>= withPartials settings base := by
    cases store? <;> rfl
  rw [hbuild]
  cases hstore : firstStore settings tree store? with
  | error fault =>
    constructor
    · intro h
      contradiction
    · rintro ⟨partials, h, -⟩
      contradiction
  | ok partials =>
    constructor
    · intro h
      exact ⟨partials, rfl, withPartials_eq_ok.mp h⟩
    · rintro ⟨_, h, hengine⟩
      obtain rfl := Except.ok.inj h
      exact withPartials_eq_ok.mpr hengine

/-- An engine that is built can be built with any base context. -/
theorem Engine.isOk_ofSettings (h : ofSettings settings base tree = .ok engine) (base' : Context) :
    (ofSettings settings base' tree).isOk := by
  have hbuild : build settings base tree none = .ok engine := h
  obtain ⟨partials, hstore, hsize, -⟩ := build_eq_ok.mp hbuild
  have hagain : build settings base' tree none =
      .ok ⟨settings, base', partials, .empty settings.compileCacheSize⟩ :=
    build_eq_ok.mpr ⟨partials, hstore, hsize, rfl⟩
  change (build settings base' tree none).isOk
  rw [hagain]
  rfl

/-- What a new engine renders is decided by its sources, its limit for partials and its context.
The sources are those of any engine that was built in the same place. -/
theorem Engine.renderNew_eq (hbuild : build settings base tree store? = .ok engine)
    (changed : Settings) (hdirectory : changed.partialsDir = settings.partialsDir)
    (hextension : changed.extension = settings.extension)
    (hsize : changed.compileCacheSize ≤ Cache.countLimit) (base' : Context) (template : Text)
    (ctx : Context) :
    renderNew changed base' tree store? template ctx =
      Template.outcome (engine.partials.source tree) changed.maxPartialDepth template
        (Mapping.merge base' ctx) := by
  obtain ⟨partials, hstore, -, rfl⟩ := build_eq_ok.mp hbuild
  have hsame : firstStore changed tree store? = .ok partials := by
    cases store? with
    | some given => exact hstore
    | none =>
      rw [← hstore, firstStore, firstStore, hdirectory, hextension]
  let fresh : Engine := ⟨changed, base', partials, .empty changed.compileCacheSize⟩
  have hfresh : build changed base' tree store? = .ok fresh :=
    build_eq_ok.mpr ⟨partials, hsame, hsize, rfl⟩
  have hsteady : Desk.Steady ⟨fresh, tree, []⟩ ⟨fresh, tree, []⟩ :=
    Desk.steady_refl (Cache.sound_empty changed.compileCacheSize)
  obtain ⟨after, hrender, -⟩ := Desk.steady_render hsteady template ctx
  rw [renderNew, hfresh]
  exact congrArg Prod.fst hrender

end Stencil
