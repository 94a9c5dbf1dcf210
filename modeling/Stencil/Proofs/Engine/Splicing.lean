import Stencil.Proofs.Engine.Uses
import Stencil.Proofs.Template.Splicing

/-!
# Partials spliced in

An engine renders a partial in the context at its place. So wherever a tree includes the partial,
the tree of its source can stand for it: the text stays the same, as long as no partial is beyond
the limit. It does not matter what the source looks like, nor what the engine was used for before.
-/

namespace Stencil

open Template (Rendered parse renderTree spliceAll)

variable {start now : Desk}

/-- A tree is rendered as the sources of the start say. -/
theorem Desk.Steady.renderTree (h : start.Steady now) (depth : Nat) (nodes : List Template.Node)
    (ctx : Context) :
    (Template.renderTree loadPartial depth [] nodes ctx now).1 =
      Template.result (Template.renderTree (Template.loadFrom start.source) depth [] nodes ctx) :=
  (Template.renderTree_agrees agrees_loadPartial depth [] nodes ctx now () h).1

/-- A sound cache stays sound, whatever happens to the engine. -/
theorem Event.sound_runAll {desk : Desk} (h : desk.engine.cache.Sound) (events : List Event) :
    (runAll events desk).engine.cache.Sound := by
  induction events generalizing desk with
  | nil => exact h
  | cons event rest ih =>
    refine ih ?_
    cases event with
    | call call => exact (Call.steady_run (Desk.steady_refl h) call).sound
    | register name source => exact h
    | files tree => exact h

/-- **Including a partial is splicing its tree.** Let an engine, whatever has happened to it since
it was built, have a source for a partial, and let it render a tree in some context to some depth,
with no partial beyond the limit. If the tree of the source stands in place of the partial wherever
the tree includes it, the engine renders the same text, be it at once or after any calls. The texts
are the same before blanks are tidied and afterwards, whatever was reported of reading the trees. -/
theorem Engine.renderTree_spliceAll {settings : Settings} {base : Context} {tree : FileTree}
    {store? : Option Partials} {engine : Engine}
    (hbuild : build settings base tree store? = .ok engine) {events : List Event}
    {messages : List Message} {desk : Desk}
    (hdesk : desk = Event.runAll events ⟨engine, tree, messages⟩) {name source : Text}
    (hsource : desk.source name = .ok (some source)) (calls : List Call) {depth : Nat}
    {nodes : List Template.Node} {ctx : Context} {rendered : Rendered}
    (hrun : (renderTree Desk.loadPartial depth [] nodes ctx desk).1 = .ok rendered)
    (hwithin : rendered.WithinDepth) :
    let spliced := spliceAll name (parse source).nodes nodes
    let later := Call.runAll calls desk
    (∃ other, (renderTree Desk.loadPartial depth [] spliced ctx later).1 = .ok other ∧
      other.text = rendered.text) ∧
    ∀ found found', ∃ tidied other,
      (Template.render Desk.loadPartial depth ⟨nodes, found⟩ ctx desk).1 = .ok tidied ∧
      (Template.render Desk.loadPartial depth ⟨spliced, found'⟩ ctx later).1 = .ok other ∧
      other.text = tidied.text := by
  intro spliced later
  have hsound : desk.engine.cache.Sound := by
    obtain ⟨partials, -, -, rfl⟩ := build_eq_ok.mp hbuild
    rw [hdesk]
    exact Event.sound_runAll (Cache.sound_empty settings.compileCacheSize) events
  have hsteady := Desk.steady_refl hsound
  have hlater := Call.steady_runAll hsteady calls
  have hpure : Template.result
      (renderTree (Template.loadFrom desk.source) depth [] nodes ctx) = .ok rendered := by
    rw [← hsteady.renderTree, hrun]
  obtain ⟨other, hother, htext⟩ := Template.sameTextWithinDepth_spliceAll hsource depth [] nodes
    ctx rendered hpure hwithin
  have hspliced : (renderTree Desk.loadPartial depth [] spliced ctx later).1 = .ok other := by
    rw [hlater.renderTree]
    exact hother
  refine ⟨⟨other, hspliced, htext⟩, fun found found' => ?_⟩
  exact ⟨_, _, Template.render_eq_ok hrun, Template.render_eq_ok hspliced,
    congrArg Layout.tidy htext⟩

/-- A loop includes a partial whose source has an opening tag without its closing tag, a closing tag
and a tag between bodies without their opening tag, and a partial that includes one more, which is
missing. The sources are handed in after the engine was built, and the engine renders something else
before the spliced tree. -/
theorem Engine.renderTree_spliceAll_of_loose_tags :
    let settings : Settings := {}
    let tree : FileTree := ⟨[], []⟩
    let source : Text := "\x7b\x7b#if x\x7d\x7d\x7b\x7belse\x7d\x7d\x7b\x7b/with\x7d\x7d".toList
      ++ "\x7b\x7bx\x7d\x7d\x7b\x7b> q\x7d\x7d ".toList
    let events : List Event :=
      [.register ['p'] source, .register ['q'] "\x7b\x7b> r\x7d\x7d".toList]
    let nodes : List Template.Node := [.each ['x', 's'] [.partialRef ['p']]]
    let ctx : Context := [(['x', 's'], .list [.mapping [(['x'], .text ['a'])], .text ['b']])]
    ∃ engine, build settings [] tree (some .inMemory) = .ok engine ∧
      let desk := Event.runAll events ⟨engine, tree, []⟩
      let later := Call.runAll [.render source ctx] desk
      desk.source ['p'] = .ok (some source) ∧
      ∃ rendered, (renderTree Desk.loadPartial 3 [] nodes ctx desk).1 = .ok rendered ∧
        rendered.WithinDepth ∧
        ∃ other, (renderTree Desk.loadPartial 3 [] (spliceAll ['p'] (parse source).nodes nodes) ctx
          later).1 = .ok other ∧ other.text = rendered.text := by
  intro settings tree source events nodes ctx
  have hbuild : build settings [] tree (some .inMemory) =
      .ok ⟨settings, [], .inMemory, .empty 256⟩ := rfl
  refine ⟨_, hbuild, ?_⟩
  intro desk later
  have hsource : desk.source ['p'] = .ok (some source) := rfl
  have hreported : (renderTree Desk.loadPartial 3 [] nodes ctx desk).1.toOption.map
      (fun r => r.diagnostics.all (·.kind != "partial_depth".toList)) = some true := by
    decide +kernel
  cases hrun : (renderTree Desk.loadPartial 3 [] nodes ctx desk).1 with
  | error =>
    rw [hrun] at hreported
    contradiction
  | ok rendered =>
    rw [hrun] at hreported
    have hwithin : rendered.WithinDepth := fun d hd =>
      bne_iff_ne.mp (List.all_eq_true.mp (Option.some.inj hreported) d hd)
    refine ⟨hsource, rendered, rfl, hwithin, ?_⟩
    exact (renderTree_spliceAll hbuild rfl hsource [.render source ctx] hrun hwithin).1

end Stencil
