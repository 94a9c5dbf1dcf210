import Stencil.Proofs.Engine.Splicing
import Stencil.Proofs.Template.RoundTrip

/-!
# Conditionals and their negation

A conditional with two bodies is as good as a conditional with the first one and a negated one with
the second one behind it, whatever stands in the bodies. Both kinds of blocks decide on a value in
the same way, and a body that spells a well-formed tree keeps its closing tags and its tags between
bodies to itself.
-/

namespace Stencil

namespace Template

/-- A block as it is written, with a single blank in its opening tag. -/
def BlockKind.written (kind : BlockKind) (path body : Text) : Text :=
  kind.openMark ++ ' ' :: (path ++ closeBraces) ++ body ++ kind.closeTag

/-! ### Trees -/

section Trees

variable {σ : Type} {embed : Text → Context → Action σ Rendered} {path : Text} {ctx : Context}
  {first second : List Node}

/-- A conditional renders the body that its value decides for. -/
theorem renderNodes_conditional :
    renderNodes embed [.conditional path first second] ctx =
      if (ctx.resolve path).isTruthy then renderNodes embed first ctx
      else renderNodes embed second ctx := by
  simp [renderNode]

/-- A negated conditional renders its body unless its value decides against it. -/
theorem renderNodes_negated :
    renderNodes embed [.negated path second] ctx =
      if (ctx.resolve path).isTruthy then renderNodes embed [] ctx
      else renderNodes embed second ctx := by
  simp [renderNode, renderNodes]

/-- A conditional and a negated one with the same path render one of their bodies. -/
theorem renderNodes_conditional_negated :
    renderNodes embed [.conditional path first [], .negated path second] ctx =
      renderNodes embed [.conditional path first second] ctx := by
  have hjoined : renderNodes embed [.conditional path first [], .negated path second] ctx =
      joined (renderNodes embed [.conditional path first []] ctx)
        (renderNodes embed [.negated path second] ctx) :=
    renderNodes_append [.conditional path first []] [.negated path second] ctx
  rw [hjoined, renderNodes_conditional, renderNodes_conditional, renderNodes_negated]
  have hempty : renderNodes embed [] ctx = pure .empty := rfl
  split
  · simp [hempty]
  · simp [hempty]

end Trees

/-- Nodes of a template are rendered with one way to render partials. -/
theorem exists_embed (sources : Sources) (depth : Nat) :
    ∃ embed, renderTree (loadFrom sources) depth [] = renderNodes embed := by
  cases depth <;> exact ⟨_, rfl⟩

/-! ### Spellings -/

section Spellings

variable {path s t : Text} {first second : List Node}

/-- The opening tag with a single blank is one of its spellings. -/
theorem spellsOpener_single_blank (kind : BlockKind) (path : Text) :
    SpellsOpener kind path (kind.openMark ++ ' ' :: (path ++ closeBraces)) := by
  have htag : SpellsTag [] path closeBraces ([] ++ [] ++ path ++ [] ++ closeBraces) :=
    .intro blanks_nil blanks_nil
  rw [List.append_nil] at htag
  exact .intro (by decide) htag

/-- A text spells a well-formed tree. -/
structure SpellsWell (nodes : List Node) (s : Text) : Prop where
  spells : SpellsAll nodes s
  wellFormed : WellFormedAll IsSafeText IsOwnPath nodes

/-- The empty template spells a tree without nodes. -/
theorem spellsWell_nil : SpellsWell [] [] := ⟨.nil, trivial⟩

/-- What a spelling of a well-formed tree gives is what the tree gives. -/
theorem SpellsWell.outcome_eq {nodes : List Node} (h : SpellsWell nodes s) (sources : Sources)
    (depth : Nat) (ctx : Context) :
    outcome sources depth s ctx =
      (result (renderTree (loadFrom sources) depth [] nodes ctx)).map fun inner =>
        ⟨Layout.tidy inner.text, inner.diagnostics⟩ := by
  have hcomment : ¬ commentOpen <:+: s :=
    Text.not_infix_of_avoids nofun (selfContained_of_spellsAll h.spells h.wellFormed).uncommented
  have hparse : parse s = ⟨nodes, []⟩ := by
    rw [parse, stripComments_of_not_infix hcomment, parseBare_of_spellsAll h.spells h.wellFormed]
  rw [Template.outcome_eq, hparse]
  rfl

/-- Spellings of trees that are rendered in the same way give the same. -/
theorem SpellsWell.outcome_congr {ctx : Context} (hfirst : SpellsWell first s)
    (hsecond : SpellsWell second t) (sources : Sources) (depth : Nat)
    (h : ∀ embed : Text → Context → Action Unit Rendered,
      renderNodes embed first ctx = renderNodes embed second ctx) :
    outcome sources depth s ctx = outcome sources depth t ctx := by
  obtain ⟨embed, hembed⟩ := exists_embed sources depth
  rw [hfirst.outcome_eq, hsecond.outcome_eq, hembed, h]

/-- A conditional with two bodies as it is written. -/
theorem SpellsWell.conditional (hpath : IsOwnPath path) (hfirst : SpellsWell first s)
    (hsecond : SpellsWell second t) :
    SpellsWell [.conditional path first second]
      (BlockKind.conditional.written path (s ++ elseTag ++ t)) where
  spells := by
    have hspelled : Spells (.conditional path first second) _ :=
      .conditional (spellsOpener_single_blank .conditional path) hfirst.spells hsecond.spells
    simpa [BlockKind.written] using spellsAll_singleton hspelled
  wellFormed := ⟨⟨hpath, hfirst.wellFormed, hsecond.wellFormed⟩, by simp [Node.isText], trivial⟩

/-- A conditional with a single body as it is written. -/
theorem SpellsWell.conditionalThen (hpath : IsOwnPath path) (h : SpellsWell first s) :
    SpellsWell [.conditional path first []] (BlockKind.conditional.written path s) where
  spells := spellsAll_singleton
    (.conditionalThen (spellsOpener_single_blank .conditional path) h.spells)
  wellFormed := ⟨⟨hpath, h.wellFormed, trivial⟩, by simp [Node.isText], trivial⟩

/-- A negated conditional as it is written. -/
theorem SpellsWell.negated (hpath : IsOwnPath path) (h : SpellsWell first s) :
    SpellsWell [.negated path first] (BlockKind.negated.written path s) where
  spells := spellsAll_singleton (.negated (spellsOpener_single_blank .negated path) h.spells)
  wellFormed := ⟨⟨hpath, h.wellFormed⟩, by simp [Node.isText], trivial⟩

/-- A conditional and a negated one behind it as they are written. -/
theorem SpellsWell.conditional_negated (hpath : IsOwnPath path) (hfirst : SpellsWell first s)
    (hsecond : SpellsWell second t) :
    SpellsWell [.conditional path first [], .negated path second]
      (BlockKind.conditional.written path s ++ BlockKind.negated.written path t) where
  spells := .cons (.conditionalThen (spellsOpener_single_blank .conditional path) hfirst.spells)
    (hsecond.negated hpath).spells
  wellFormed := ⟨⟨hpath, hfirst.wellFormed, trivial⟩, by simp [Node.isText],
    (hsecond.negated hpath).wellFormed⟩

end Spellings

end Template

open Template (BlockKind SpellsWell IsOwnPath elseTag)

/-- An engine gives for a template what its sources, its settings and its base context say, whatever
has happened to it since it was built. -/
theorem Engine.render_runAll_events {settings : Settings} {base : Context} {tree : FileTree}
    {store? : Option Partials} {engine : Engine}
    (hbuild : build settings base tree store? = .ok engine) (events : List Event)
    (messages : List Message) (template : Text) (ctx : Context) :
    let desk := Event.runAll events ⟨engine, tree, messages⟩
    (Desk.render template ctx desk).1 =
      Template.outcome desk.source desk.engine.settings.maxPartialDepth template
        (Mapping.merge desk.engine.base ctx) := by
  intro desk
  have hsound : desk.engine.cache.Sound := by
    obtain ⟨partials, -, -, rfl⟩ := build_eq_ok.mp hbuild
    exact Event.sound_runAll (Cache.sound_empty settings.compileCacheSize) events
  obtain ⟨after, hrender, -⟩ := Desk.steady_render (Desk.steady_refl hsound) template ctx
  exact congrArg Prod.fst hrender

/-- **Conditionals are complementary.** Let an engine, whatever has happened to it since it was
built, render in some context, and let two texts spell well-formed trees. A conditional with the two
texts as bodies gives the same as a conditional with the first one and a negated conditional with
the second one behind it: the same text and the same diagnostics, or the same fault. Of a
conditional and a negated conditional with the same body, one gives what the body gives by itself,
and the other one what the empty template gives; the value of the path decides which is which.
Unless the body gives what the empty template does, only one of the two gives what the body does. -/
theorem Engine.render_complementary {settings : Settings} {base : Context} {tree : FileTree}
    {store? : Option Partials} {engine : Engine}
    (hbuild : build settings base tree store? = .ok engine) {events : List Event}
    {messages : List Message} {desk : Desk}
    (hdesk : desk = Event.runAll events ⟨engine, tree, messages⟩) {path s t : Text}
    {first second : List Template.Node} (hpath : IsOwnPath path) (hfirst : SpellsWell first s)
    (hsecond : SpellsWell second t) (ctx : Context) :
    let rendered (template : Text) := (Desk.render template ctx desk).1
    let whenTruthy (body : Text) := BlockKind.conditional.written path body
    let unlessTruthy (body : Text) := BlockKind.negated.written path body
    let value := Context.resolve (Mapping.merge desk.engine.base ctx) path
    rendered (whenTruthy (s ++ elseTag ++ t)) = rendered (whenTruthy s ++ unlessTruthy t) ∧
      (value.isTruthy →
        rendered (whenTruthy s) = rendered s ∧ rendered (unlessTruthy s) = rendered []) ∧
      (¬ value.isTruthy →
        rendered (unlessTruthy s) = rendered s ∧ rendered (whenTruthy s) = rendered []) ∧
      (rendered s ≠ rendered [] →
        Xor (rendered (whenTruthy s) = rendered s) (rendered (unlessTruthy s) = rendered s)) := by
  intro rendered whenTruthy unlessTruthy value
  have hsame {nodes nodes' : List Template.Node} {a b : Text} (ha : SpellsWell nodes a)
      (hb : SpellsWell nodes' b)
      (h : ∀ embed : Text → Context → Action Unit Template.Rendered,
        Template.renderNodes embed nodes (Mapping.merge desk.engine.base ctx) =
          Template.renderNodes embed nodes' (Mapping.merge desk.engine.base ctx)) :
      rendered a = rendered b := by
    have hdesks (template : Text) := render_runAll_events hbuild events messages template ctx
    rw [← hdesk] at hdesks
    exact (hdesks a).trans ((ha.outcome_congr hb _ _ h).trans (hdesks b).symm)
  have hthen := hfirst.conditionalThen hpath
  have hunless := hfirst.negated hpath
  have htruthy (h : value.isTruthy) :
      rendered (whenTruthy s) = rendered s ∧ rendered (unlessTruthy s) = rendered [] :=
    ⟨hsame hthen hfirst fun embed => by rw [Template.renderNodes_conditional, if_pos h],
      hsame hunless Template.spellsWell_nil fun embed => by
        rw [Template.renderNodes_negated, if_pos h]⟩
  have hfalsy (h : ¬ value.isTruthy) :
      rendered (unlessTruthy s) = rendered s ∧ rendered (whenTruthy s) = rendered [] :=
    ⟨hsame hunless hfirst fun embed => by rw [Template.renderNodes_negated, if_neg h],
      hsame hthen Template.spellsWell_nil fun embed => by
        rw [Template.renderNodes_conditional, if_neg h]⟩
  refine ⟨?_, htruthy, hfalsy, fun hne => ?_⟩
  · exact hsame (hfirst.conditional hpath hsecond) (hfirst.conditional_negated hpath hsecond)
      fun embed => Template.renderNodes_conditional_negated.symm
  · by_cases h : value.isTruthy
    · obtain ⟨hgives, hnothing⟩ := htruthy h
      exact Or.inl ⟨hgives, fun hother => hne (hother.symm.trans hnothing)⟩
    · obtain ⟨hgives, hnothing⟩ := hfalsy h
      exact Or.inr ⟨hgives, fun hother => hne (hother.symm.trans hnothing)⟩

/-- The first body has a tag between bodies and includes a partial, and the second one has a block
of each of the two kinds. The partial, which was handed in after the engine was built, includes a
missing one, so there is something to report. -/
theorem Engine.render_complementary_of_nested_blocks :
    let settings : Settings := {}
    let tree : FileTree := ⟨[], []⟩
    let events : List Event := [.register ['m'] "\x7b\x7b> n\x7d\x7d".toList]
    let first : List Template.Node :=
      [.conditional ['q'] [.text ['x']] [.partialRef ['m'], .text ['y']]]
    let second : List Template.Node := [.negated ['q'] [.conditional ['p'] [] [.raw ['q']]]]
    let s := Template.plainAll first
    let t := Template.plainAll second
    let ctx : Context := [(['p'], .text ['v'])]
    IsOwnPath ['p'] ∧ SpellsWell first s ∧ SpellsWell second t ∧
      ∃ engine, build settings [] tree (some .inMemory) = .ok engine ∧
        let desk := Event.runAll events ⟨engine, tree, []⟩
        let rendered (template : Text) := (Desk.render template ctx desk).1
        let whenTruthy (body : Text) := BlockKind.conditional.written ['p'] body
        let unlessTruthy (body : Text) := BlockKind.negated.written ['p'] body
        rendered (whenTruthy (s ++ elseTag ++ t)) = rendered (whenTruthy s ++ unlessTruthy t) ∧
          rendered (whenTruthy s) = rendered s ∧ rendered (unlessTruthy s) = rendered [] ∧
          rendered (unlessTruthy s) ≠ rendered s := by
  intro settings tree events first second s t ctx
  have hown (c : Char) (hc : Text.isWord c) (hne : [c] ≠ Template.elseWord) : IsOwnPath [c] :=
    ⟨.plain (.word ⟨List.cons_ne_nil c [], fun d hd => by rwa [List.mem_singleton.mp hd]⟩), hne⟩
  have hp : IsOwnPath ['p'] := hown 'p' (by decide) (by decide)
  have hq : IsOwnPath ['q'] := hown 'q' (by decide) (by decide)
  have hname : Template.IsPartialName ['m'] := ⟨by decide, List.all_eq_true.mp (by decide)⟩
  have hx : Template.IsSafeText ['x'] := ⟨by decide, by decide, by decide⟩
  have hy : Template.IsSafeText ['y'] := ⟨by decide, by decide, by decide⟩
  have hfirst : SpellsWell first s := by
    refine ⟨Template.spellsAll_plainAll first, ⟨hq, ?_, ?_⟩, by decide, trivial⟩
    · exact ⟨hx, by decide, trivial⟩
    · exact ⟨hname, by decide, hy, by decide, trivial⟩
  have hsecond : SpellsWell second t := by
    refine ⟨Template.spellsAll_plainAll second, ⟨hq, ?_, by decide, trivial⟩, by decide, trivial⟩
    exact ⟨hp, trivial, hq, by decide, trivial⟩
  have hbuild : build settings [] tree (some .inMemory) =
      .ok ⟨settings, [], .inMemory, .empty 256⟩ := rfl
  refine ⟨hp, hfirst, hsecond, _, hbuild, ?_⟩
  intro desk rendered whenTruthy unlessTruthy
  have hdesk : desk = Event.runAll events ⟨_, tree, []⟩ := rfl
  obtain ⟨hboth, htruthy, -, hone⟩ := render_complementary hbuild hdesk hp hfirst hsecond ctx
  obtain ⟨hgives, hnothing⟩ := htruthy (by decide +kernel)
  have hne : rendered s ≠ rendered [] := by
    intro heq
    have htext : (rendered s).toOption.map (·.text) = (rendered []).toOption.map (·.text) := by
      rw [heq]
    revert htext
    decide +kernel
  refine ⟨hboth, hgives, hnothing, ?_⟩
  exact (hone hne).elim (fun h => h.2) fun h => absurd hgives h.2

end Stencil
