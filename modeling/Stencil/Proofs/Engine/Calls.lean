import Stencil.Proofs.Engine.Sources

/-!
# Earlier calls

An engine that was used before has kept trees and sources, and has perhaps failed half-way through
some call. None of this shows: after any calls it renders as a new engine does whose base context
has the entries that were written since.
-/

namespace Stencil

/-- A call on an engine, but for one that hands in a partial. -/
inductive Call
  | render (template : Text) (ctx : Context)
  | process (template : Text) (ctx : Context)
  | processFile (path : Path) (ctx : Context)
  | compile (source : Text)
  | loadSource (name : Text)
  | hasTemplate (path : Path)
  | extendBase (ctx : Context)

namespace Call

/-- The engine after a call, whether the call fails or not. -/
def run : Call → Desk → Desk
  | render template ctx, desk => (Desk.render template ctx desk).2
  | process template ctx, desk => (Desk.process template ctx desk).2
  | processFile path ctx, desk => (Desk.processFile path ctx desk).2
  | compile source, desk => (Desk.compile source desk).2
  | loadSource name, desk => (Desk.loadSource name desk).2
  | hasTemplate path, desk => (Desk.hasTemplate path desk).2
  | extendBase ctx, desk => { desk with engine := desk.engine.extendBase ctx }

/-- The engine after calls, one after the other. -/
def runAll (calls : List Call) (desk : Desk) : Desk :=
  calls.foldl (fun desk call => call.run desk) desk

/-- The entries that a call writes on top of the base context, if it is there for that. -/
def entries? : Call → Option Context
  | extendBase ctx => some ctx
  | _ => none

/-- A base context with the entries written on top that calls write, in their order. -/
def baseAfter (calls : List Call) (base : Context) : Context :=
  (calls.filterMap entries?).foldl Mapping.merge base

end Call

/-- An engine at work with another base context. -/
def Desk.withBase (desk : Desk) (base : Context) : Desk :=
  { desk with engine := { desk.engine with base := base } }

namespace Desk

variable {start now : Desk}

/-- Rendering leaves an engine steady. -/
theorem Steady.render (h : start.Steady now) (template : Text) (ctx : Context) :
    start.Steady (Desk.render template ctx now).2 := by
  obtain ⟨after, hrender, hafter⟩ := steady_render h template ctx
  rw [hrender]
  exact hafter

/-- The text of a rendering comes with the state after it. -/
@[simp] theorem process_snd (template : Text) (ctx : Context) (desk : Desk) :
    (process template ctx desk).2 = (Desk.render template ctx desk).2 := by
  rw [process, Action.bind_run]
  rcases Desk.render template ctx desk with ⟨_ | _, _⟩ <;> rfl

/-- Rendering a template file fails if the file is not there or cannot be read, and else renders its
text. -/
theorem processFile_run (path : Path) (ctx : Context) (desk : Desk) :
    processFile path ctx desk =
      match desk.tree.hasFile (desk.engine.templatePath path) with
      | .error fault => (.error fault, desk)
      | .ok false => (.error (.templateMissing (desk.engine.templatePath path)), desk)
      | .ok true =>
        match desk.tree.readText (desk.engine.templatePath path) with
        | .error fault => (.error fault, desk)
        | .ok source => process source ctx desk := by
  change (ExceptT.bindCont _ _ : StateM Desk _) desk = _
  rcases desk.tree.hasFile (desk.engine.templatePath path) with fault | _ | _
  · rfl
  · rfl
  · cases desk.tree.readText (desk.engine.templatePath path) <;> rfl

/-- Rendering a template file leaves an engine as it was, if the file cannot be read, or else as
rendering its text does. -/
theorem processFile_snd (path : Path) (ctx : Context) (desk : Desk) :
    (processFile path ctx desk).2 = desk ∨
      ∃ template, (processFile path ctx desk).2 = (Desk.render template ctx desk).2 := by
  rw [processFile_run]
  split
  · exact Or.inl rfl
  · exact Or.inl rfl
  · split
    · exact Or.inl rfl
    · next source hread => exact Or.inr ⟨source, process_snd source ctx desk⟩

/-- Rendering a template file leaves an engine steady. -/
theorem Steady.processFile (h : start.Steady now) (path : Path) (ctx : Context) :
    start.Steady (Desk.processFile path ctx now).2 := by
  rcases processFile_snd path ctx now with hsame | ⟨template, hrender⟩
  · rw [hsame]
    exact h
  · rw [hrender]
    exact h.render template ctx

/-- Loading a source leaves an engine steady. -/
theorem Steady.loadSource (h : start.Steady now) (name : Text) :
    start.Steady (Desk.loadSource name now).2 := by
  obtain ⟨after, hload, hafter⟩ := steady_loadSource h name
  rw [hload]
  exact hafter

end Desk

namespace Call

variable {start now : Desk}

/-- A call leaves an engine steady, but for the entries that it writes into the base context. -/
theorem steady_run (h : start.Steady now) (call : Call) :
    (start.withBase (baseAfter [call] start.engine.base)).Steady (call.run now) := by
  cases call with
  | render template ctx => exact h.render template ctx
  | process template ctx =>
    change start.Steady (Desk.process template ctx now).2
    rw [Desk.process_snd]
    exact h.render template ctx
  | processFile path ctx => exact h.processFile path ctx
  | compile source =>
    obtain ⟨kept, after, hcompile, -, hafter⟩ := Desk.steady_compile h source
    change start.Steady (Desk.compile source now).2
    rw [hcompile]
    exact hafter
  | loadSource name => exact h.loadSource name
  | hasTemplate path => exact h
  | extendBase ctx =>
    exact ⟨h.settings, congrArg (Mapping.merge · ctx) h.base, h.tree, h.source, h.sound⟩

/-- The entries of a first call are written before those of the rest. -/
theorem baseAfter_cons (call : Call) (rest : List Call) (base : Context) :
    baseAfter (call :: rest) base = baseAfter rest (baseAfter [call] base) := by
  cases call <;> rfl

/-- Calls leave an engine steady, but for the entries that they write into the base context. -/
theorem steady_runAll (h : start.Steady now) (calls : List Call) :
    (start.withBase (baseAfter calls start.engine.base)).Steady (runAll calls now) := by
  induction calls generalizing start now with
  | nil => exact h
  | cons call rest ih =>
    rw [baseAfter_cons]
    exact ih (steady_run h call)

end Call

/-- After any calls an engine renders what the sources that it began with, its settings and its base
context say. -/
theorem Engine.render_runAll {settings : Settings} {base : Context} {tree : FileTree}
    {store? : Option Partials} {engine : Engine}
    (hbuild : build settings base tree store? = .ok engine) (calls : List Call)
    (messages : List Message) (template : Text) (ctx : Context) :
    (Desk.render template ctx (Call.runAll calls ⟨engine, tree, messages⟩)).1 =
      Template.outcome (engine.partials.source tree) settings.maxPartialDepth template
        (Mapping.merge (Call.baseAfter calls base) ctx) := by
  obtain ⟨partials, -, -, rfl⟩ := build_eq_ok.mp hbuild
  have hnew : Desk.Steady ⟨⟨settings, base, partials, .empty settings.compileCacheSize⟩, tree,
      messages⟩ ⟨⟨settings, base, partials, .empty settings.compileCacheSize⟩, tree, messages⟩ :=
    Desk.steady_refl (Cache.sound_empty settings.compileCacheSize)
  obtain ⟨after, hrender, -⟩ := Desk.steady_render (Call.steady_runAll hnew calls) template ctx
  exact congrArg Prod.fst hrender

/-- **Earlier calls do not show.** Whatever calls were made on an engine since it was built, it
renders a template as an engine does that is built now on the same files, with a cache of any size,
and with the entries that were written since on top of the base context: with the same text and the
same diagnostics, or with the same fault. -/
theorem Engine.render_after_calls {settings : Settings} {base : Context} {tree : FileTree}
    {store? : Option Partials} {engine : Engine}
    (hbuild : build settings base tree store? = .ok engine) {size : Nat}
    (hsize : size ≤ Cache.countLimit) (calls : List Call) (messages : List Message)
    (template : Text) (ctx : Context) :
    (Desk.render template ctx (Call.runAll calls ⟨engine, tree, messages⟩)).1 =
      renderNew { settings with compileCacheSize := size } (Call.baseAfter calls base) tree store?
        template ctx := by
  rw [renderNew_eq hbuild { settings with compileCacheSize := size } rfl rfl hsize,
    render_runAll hbuild]

/-- An engine on a store in memory has rendered a partial, was given a value for it, and has failed
to find a file. Then it writes the value where it wrote nothing at first, as a new engine with the
value does that keeps no tree. -/
theorem Engine.render_after_calls_in_memory :
    let settings : Settings := {}
    let store : Partials := (Partials.inMemory.register ['p'] "\x7b\x7bx\x7d\x7d".toList).2
    let tree : FileTree := ⟨[], []⟩
    let template : Text := "\x7b\x7b> p\x7d\x7d;".toList
    let calls : List Call :=
      [.render template [], .extendBase [(['x'], .bool true)], .processFile (.ofText ['f']) []]
    ∃ engine, build settings [] tree (some store) = .ok engine ∧ 0 ≤ Cache.countLimit ∧
      (Desk.render template [] ⟨engine, tree, []⟩).1 = .ok ⟨[';'], []⟩ ∧
      (Desk.render template [] (Call.runAll calls ⟨engine, tree, []⟩)).1 =
        .ok ⟨"true;".toList, []⟩ ∧
      renderNew { settings with compileCacheSize := 0 } [(['x'], .bool true)] tree (some store)
        template [] = .ok ⟨"true;".toList, []⟩ := by
  intro settings store tree template calls
  have hbuild : build settings [] tree (some store) = .ok ⟨settings, [], store, .empty 256⟩ := rfl
  have hsize : 0 ≤ Cache.countLimit := Nat.zero_le _
  have hfirst : (Desk.render template [] ⟨⟨settings, [], store, .empty 256⟩, tree, []⟩).1 =
      .ok ⟨[';'], []⟩ := Action.eq_ok_of_toOption (by decide +kernel)
  have hafter : (Desk.render template []
      (Call.runAll calls ⟨⟨settings, [], store, .empty 256⟩, tree, []⟩)).1 =
        .ok ⟨"true;".toList, []⟩ := Action.eq_ok_of_toOption (by decide +kernel)
  refine ⟨_, hbuild, hsize, hfirst, hafter, ?_⟩
  rw [← hafter]
  exact (render_after_calls hbuild hsize calls [] template []).symm

end Stencil
