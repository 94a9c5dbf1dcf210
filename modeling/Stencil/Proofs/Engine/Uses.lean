import Stencil.Proofs.Engine.Calls
import Stencil.Proofs.Engine.Recency

/-!
# Uses of trees

An engine uses the tree of a source when it is told to compile it, when it renders it as a template,
and whenever a rendering includes it as a partial. To speak of all these uses, also of those in the
middle of a rendering, an engine is watched: it does what it does unwatched, and every use is noted
with the cache as it was just before. At each use the cache holds exactly the sources used last.
-/

namespace Stencil

/-- A use of the tree of a source. -/
structure Use where
  source : Text
  /-- The cache just before the use. -/
  before : Cache
  /-- What was given for the source. -/
  kept : Kept

/-- An engine at work with the uses so far, the latest one last. -/
structure Watched where
  desk : Desk
  uses : List Use

namespace Watched

variable {α : Type}

/-- The sources that were used, the latest one last. -/
def usedSources (w : Watched) : List Text := w.uses.map (·.source)

/-- Runs an operation of an engine in which nothing is compiled. -/
def quietly (action : Action Desk α) : Action Watched α :=
  Action.zoom (·.desk) (fun desk w => { w with desk := desk }) action

/-- Uses the tree of a source and notes the use. -/
def compile (source : Text) : Action Watched Kept := do
  let before := (← get).desk.engine.cache
  let kept ← quietly (Desk.compile source)
  modify fun w => { w with uses := w.uses ++ [⟨source, before, kept⟩] }
  return kept

/-- The tree of a partial, if there is one. -/
def loadPartial (name : Text) : Action Watched (Option Template.Parsed) := do
  match ← quietly (Desk.loadSource name) with
  | none => return none
  | some source => return some (← compile source).tree

/-- Renders a template on the base context with entries on top. -/
def render (template : Text) (ctx : Context) : Action Watched Template.Rendered := do
  let engine := (← get).desk.engine
  let kept ← compile template
  let rendered ← Template.render loadPartial engine.settings.maxPartialDepth kept.tree
    (Mapping.merge engine.base ctx)
  quietly (Desk.report engine.settings.verbose rendered)

/-- The text of a rendered template. -/
def process (template : Text) (ctx : Context) : Action Watched Text := do
  return (← render template ctx).text

/-- The text of a rendered template file. -/
def processFile (path : Path) (ctx : Context) : Action Watched Text := do
  let desk := (← get).desk
  let full := desk.engine.templatePath path
  if ← desk.tree.hasFile full then
    let source ← desk.tree.readText full
    process source ctx
  else throw (.templateMissing full)

end Watched

/-- What happens to an engine: a call, a partial that is handed in, or a change of its files. -/
inductive Event
  | call (call : Call)
  | register (name source : Text)
  | files (tree : FileTree)

/-- The watched engine after a call, whether the call fails or not. -/
def Call.watch : Call → Watched → Watched
  | render template ctx, w => (Watched.render template ctx w).2
  | process template ctx, w => (Watched.process template ctx w).2
  | processFile path ctx, w => (Watched.processFile path ctx w).2
  | compile source, w => (Watched.compile source w).2
  | loadSource name, w => (Watched.quietly (Desk.loadSource name) w).2
  | hasTemplate path, w => (Watched.quietly (Desk.hasTemplate path) w).2
  | extendBase ctx, w =>
    { w with desk := { w.desk with engine := w.desk.engine.extendBase ctx } }

namespace Event

/-- The engine after an event. -/
def run : Event → Desk → Desk
  | .call action, desk => action.run desk
  | .register name source, desk => (Desk.register name source desk).2
  | .files tree, desk => { desk with tree := tree }

/-- The engine after events, one after the other. -/
def runAll (events : List Event) (desk : Desk) : Desk :=
  events.foldl (fun desk event => event.run desk) desk

/-- The watched engine after an event. -/
def watch : Event → Watched → Watched
  | .call action, w => action.watch w
  | .register name source, w => (Watched.quietly (Desk.register name source) w).2
  | .files tree, w => { w with desk := { w.desk with tree := tree } }

/-- The watched engine after events, one after the other. -/
def watchAll (events : List Event) (w : Watched) : Watched :=
  events.foldl (fun w event => event.watch w) w

end Event

/-! ### What is noted -/

namespace Watched

variable {α : Type} {capacity : Nat}

/-- The notes tell how the cache came about: by the uses that were noted, from a cache that was
empty, and what each use was given is what its cache gives. -/
structure Recorded (capacity : Nat) (w : Watched) : Prop where
  cache : w.desk.engine.cache = (Cache.empty capacity).useAll w.usedSources
  each : ∀ earlier use later, w.uses = earlier ++ use :: later →
    use.before = (Cache.empty capacity).useAll (earlier.map (·.source)) ∧
      use.kept = (use.before.use use.source).1

/-- A watched engine that is at the same point as an engine, with the notes on how it came there. -/
def Follows (capacity : Nat) (w : Watched) (desk : Desk) : Prop :=
  w.desk = desk ∧ w.Recorded capacity

/-- An operation that does not touch the cache agrees with itself when it is watched. -/
theorem agrees_quietly {action : Action Desk α}
    (h : ∀ desk, (action desk).2.engine.cache = desk.engine.cache) :
    Action.Agrees (Follows capacity) (quietly action) action := by
  rintro w _ ⟨rfl, hrecorded⟩
  refine ⟨rfl, rfl, ?_, hrecorded.each⟩
  exact (h w.desk).trans hrecorded.cache

/-- A use is noted behind the earlier ones. -/
theorem uses_compile (source : Text) (w : Watched) :
    (compile source w).2.uses =
      w.uses ++ [⟨source, w.desk.engine.cache, (w.desk.engine.cache.use source).1⟩] := rfl

/-- A use agrees with itself when it is watched. -/
theorem agrees_compile (source : Text) :
    Action.Agrees (Follows capacity) (compile source) (Desk.compile source) := by
  rintro w _ ⟨rfl, hrecorded⟩
  refine ⟨rfl, rfl, ?_, ?_⟩
  · rw [usedSources, uses_compile, List.map_append, Cache.useAll, List.foldl_append]
    change (w.desk.engine.cache.use source).2 = _
    rw [hrecorded.cache]
    rfl
  · intro earlier use later huses
    rw [uses_compile] at huses
    rcases List.eq_nil_or_concat later with rfl | ⟨later, last, rfl⟩
    · obtain ⟨rfl, huse⟩ := List.append_inj' huses rfl
      rw [← (List.cons.inj huse).1]
      exact ⟨hrecorded.cache, rfl⟩
    · rw [List.concat_eq_append, ← List.cons_append, ← List.append_assoc] at huses
      exact hrecorded.each earlier use later (List.append_inj' huses rfl).1

/-- Loading a source does not touch the cache. -/
@[simp] theorem cache_loadSource (name : Text) (desk : Desk) :
    (Desk.loadSource name desk).2.engine.cache = desk.engine.cache := by
  change ((ExceptT.bindCont _ _ : StateM Desk _) desk).2.engine.cache = _
  cases desk.engine.partials.load desk.tree name <;> rfl

/-- A report does not touch the cache. -/
@[simp] theorem cache_report (verbose : Bool) (rendered : Template.Rendered) (desk : Desk) :
    (Desk.report verbose rendered desk).2.engine.cache = desk.engine.cache := by
  obtain ⟨messages, hreport⟩ := Desk.exists_messages_of_report verbose rendered desk
  rw [hreport]

/-- Loading the tree of a partial agrees with itself when it is watched. -/
theorem agrees_loadPartial (name : Text) :
    Action.Agrees (Follows capacity) (loadPartial name) (Desk.loadPartial name) := by
  refine (agrees_quietly (cache_loadSource name)).bind fun found => ?_
  cases found with
  | none => exact Action.agrees_pure _
  | some source => exact (agrees_compile source).bind fun kept => Action.agrees_pure _

/-- Rendering agrees with itself when it is watched. -/
theorem agrees_render (template : Text) (ctx : Context) :
    Action.Agrees (Follows capacity) (render template ctx) (Desk.render template ctx) := by
  rintro w _ ⟨rfl, hrecorded⟩
  have hrender (settings : Engine.Settings) (base : Context) :
      Action.Agrees (Follows capacity)
        (compile template >>= fun kept => Template.render loadPartial settings.maxPartialDepth
          kept.tree (Mapping.merge base ctx) >>= fun rendered =>
            quietly (Desk.report settings.verbose rendered))
        (Desk.compile template >>= fun kept => Template.render Desk.loadPartial
          settings.maxPartialDepth kept.tree (Mapping.merge base ctx) >>=
            Desk.report settings.verbose) := by
    refine (agrees_compile template).bind fun kept => ?_
    refine (Template.render_agrees agrees_loadPartial _ _ _).bind fun rendered => ?_
    exact agrees_quietly (cache_report settings.verbose rendered)
  exact hrender w.desk.engine.settings w.desk.engine.base w w.desk ⟨rfl, hrecorded⟩

/-- The text of a rendering agrees with itself when it is watched. -/
theorem agrees_process (template : Text) (ctx : Context) :
    Action.Agrees (Follows capacity) (process template ctx) (Desk.process template ctx) :=
  (agrees_render template ctx).bind fun _ => Action.agrees_pure _

/-- Watched or not, rendering a template file fails if the file is not there or cannot be read, and
else renders its text. -/
theorem processFile_run (path : Path) (ctx : Context) (w : Watched) :
    processFile path ctx w =
      match w.desk.tree.hasFile (w.desk.engine.templatePath path) with
      | .error fault => (.error fault, w)
      | .ok false => (.error (.templateMissing (w.desk.engine.templatePath path)), w)
      | .ok true =>
        match w.desk.tree.readText (w.desk.engine.templatePath path) with
        | .error fault => (.error fault, w)
        | .ok source => process source ctx w := by
  change (ExceptT.bindCont _ _ : StateM Watched _) w = _
  rcases w.desk.tree.hasFile (w.desk.engine.templatePath path) with fault | _ | _
  · rfl
  · rfl
  · cases w.desk.tree.readText (w.desk.engine.templatePath path) <;> rfl

/-- Rendering a template file agrees with itself when it is watched. -/
theorem agrees_processFile (path : Path) (ctx : Context) :
    Action.Agrees (Follows capacity) (processFile path ctx) (Desk.processFile path ctx) := by
  rintro w _ ⟨rfl, hrecorded⟩
  rw [processFile_run, Desk.processFile_run]
  rcases w.desk.tree.hasFile (w.desk.engine.templatePath path) with fault | _ | _
  · exact ⟨rfl, rfl, hrecorded⟩
  · exact ⟨rfl, rfl, hrecorded⟩
  · cases w.desk.tree.readText (w.desk.engine.templatePath path) with
    | error fault => exact ⟨rfl, rfl, hrecorded⟩
    | ok source => exact agrees_process source ctx w w.desk ⟨rfl, hrecorded⟩

/-- A new engine is watched from its first use on. -/
theorem follows_new (settings : Engine.Settings) (base : Context) (partials : Partials)
    (tree : FileTree) (messages : List Message) :
    let engine : Engine := ⟨settings, base, partials, .empty settings.compileCacheSize⟩
    let desk : Desk := ⟨engine, tree, messages⟩
    Follows settings.compileCacheSize ⟨desk, []⟩ desk := by
  refine ⟨rfl, rfl, fun earlier use later huses => ?_⟩
  simp at huses

end Watched

/-- A call on a watched engine is the call on the engine. -/
theorem Call.follows_watch {capacity : Nat} {w : Watched} {desk : Desk}
    (h : w.Follows capacity desk) (call : Call) :
    (call.watch w).Follows capacity (call.run desk) := by
  cases call with
  | render template ctx => exact (Watched.agrees_render template ctx w desk h).2
  | process template ctx => exact (Watched.agrees_process template ctx w desk h).2
  | processFile path ctx => exact (Watched.agrees_processFile path ctx w desk h).2
  | compile source => exact (Watched.agrees_compile source w desk h).2
  | loadSource name =>
    exact (Watched.agrees_quietly (Watched.cache_loadSource name) w desk h).2
  | hasTemplate path => exact (Watched.agrees_quietly (fun _ => rfl) w desk h).2
  | extendBase ctx =>
    obtain ⟨rfl, hrecorded⟩ := h
    exact ⟨rfl, hrecorded.cache, hrecorded.each⟩

namespace Event

/-- An event on a watched engine is the event on the engine. -/
theorem follows_watch {capacity : Nat} {w : Watched} {desk : Desk} (h : w.Follows capacity desk)
    (event : Event) : (event.watch w).Follows capacity (event.run desk) := by
  cases event with
  | call action => exact Call.follows_watch h action
  | register name source => exact (Watched.agrees_quietly (fun _ => rfl) w desk h).2
  | files tree =>
    obtain ⟨rfl, hrecorded⟩ := h
    exact ⟨rfl, hrecorded.cache, hrecorded.each⟩

/-- Events on a watched engine are the events on the engine. -/
theorem follows_watchAll {capacity : Nat} {w : Watched} {desk : Desk}
    (h : w.Follows capacity desk) (events : List Event) :
    (watchAll events w).Follows capacity (runAll events desk) := by
  induction events generalizing w desk with
  | nil => exact h
  | cons event rest ih => exact ih (follows_watch h event)

end Event

/-- A sound cache stays sound over uses. -/
theorem Cache.Sound.useAll {c : Cache} (h : c.Sound) (uses : List Text) :
    (c.useAll uses).Sound := by
  induction uses generalizing c with
  | nil => exact h
  | cons source rest ih => exact ih (h.use source)

/-- What a cache holds after uses from an empty one: the sources used last, as many as there are and
as it may hold. -/
theorem Cache.holds_latest {c : Cache} {capacity : Nat} {uses : List Text}
    (h : c = (empty capacity).useAll uses) :
    c.sources = latest capacity uses ∧ c.size = min capacity uses.toFinset.card := by
  have hsources : c.sources = latest capacity uses := by simp [h]
  refine ⟨hsources, ?_⟩
  rw [← length_latest, ← hsources, size, sources, List.length_map]

/-- **The cache holds the trees used last.** Whatever happens to a new engine, watching changes
nothing about it, and at its end as well as before each use, also one in the middle of a rendering,
the cache holds exactly the sources used last, as many as were used and as it may hold. A use reuses
a stored tree exactly if its source is one of these, and gives the tree of its source either way. -/
theorem Engine.cache_holds_latest {settings : Settings} {base : Context} {tree : FileTree}
    {store? : Option Partials} {engine : Engine}
    (hbuild : build settings base tree store? = .ok engine) (events : List Event)
    (messages : List Message) :
    let w := Event.watchAll events ⟨⟨engine, tree, messages⟩, []⟩
    let capacity := settings.compileCacheSize
    w.desk = Event.runAll events ⟨engine, tree, messages⟩ ∧
    (w.desk.engine.cache.sources = Cache.latest capacity w.usedSources ∧
      w.desk.engine.cache.size = min capacity w.usedSources.toFinset.card) ∧
    ∀ earlier use later, w.uses = earlier ++ use :: later →
      let sources := earlier.map (·.source)
      (use.before.sources = Cache.latest capacity sources ∧
        use.before.size = min capacity sources.toFinset.card) ∧
      (use.kept ∈ use.before.slots ↔ use.source ∈ Cache.latest capacity sources) ∧
      use.kept.tree = Template.parse use.source := by
  intro w capacity
  obtain ⟨partials, -, -, rfl⟩ := build_eq_ok.mp hbuild
  obtain ⟨hdesk, hrecorded⟩ : w.Follows capacity (Event.runAll events _) :=
    Event.follows_watchAll (Watched.follows_new settings base partials tree messages) events
  refine ⟨hdesk, Cache.holds_latest hrecorded.cache, fun earlier use later huses => ?_⟩
  intro sources
  obtain ⟨hbefore, hkept⟩ := hrecorded.each earlier use later huses
  have hholds := Cache.holds_latest hbefore
  refine ⟨hholds, ?_, ?_⟩
  · rw [hkept, Cache.use_mem_slots_iff, hholds.1]
  · have hsound : use.before.Sound := by
      rw [hbefore]
      exact (Cache.sound_empty capacity).useAll _
    rw [hkept, hsound.tree_use]

/-- A template includes a partial, and there is room for one tree only: while the template is
rendered, the tree of the partial takes the place of its own. -/
theorem Engine.cache_holds_latest_of_included_partial :
    let settings : Settings := { compileCacheSize := 1 }
    let tree : FileTree := ⟨[], []⟩
    let store : Partials := (Partials.inMemory.register ['p'] ['A']).2
    let template : Text := "\x7b\x7b> p\x7d\x7d".toList
    let events : List Event := [.call (.compile ['A']), .call (.render template [])]
    ∃ engine, build settings [] tree (some store) = .ok engine ∧
      let w := Event.watchAll events ⟨⟨engine, tree, []⟩, []⟩
      w.usedSources = [['A'], template, ['A']] ∧
      w.desk.engine.cache.sources = Cache.latest 1 w.usedSources ∧
      Cache.latest 1 w.usedSources = [['A']] := by
  intro settings tree store template events
  have hbuild : build settings [] tree (some store) = .ok ⟨settings, [], store, .empty 1⟩ := rfl
  refine ⟨_, hbuild, ?_⟩
  intro w
  have hused : w.usedSources = [['A'], template, ['A']] := by decide +kernel
  refine ⟨hused, (cache_holds_latest hbuild events []).2.1.1, ?_⟩
  rw [hused]
  decide +kernel

end Stencil
