import Stencil.Proofs.Engine.Calls
import Stencil.Proofs.Html

/-!
# Escaping from end to end

Values reach a rendered text at any depth of blocks and partials, and the text is tidied at the end.
Where templates write values in their escaped form only, and have no character with a meaning in
HTML in their own texts, all that is written is the escaped form of some text, and stays so.
-/

namespace Stencil

namespace Template

/-- A node writes, for itself, nothing but escaped text: it is no value that is written as it is,
and no text with a character that has a meaning in HTML. -/
def Node.WritesEscaped : Node → Prop
  | .raw _ => False
  | .text s => ∀ c ∈ s, c ∉ Html.specials
  | _ => True

instance : (node : Node) → Decidable node.WritesEscaped
  | .raw _ => isFalse id
  | .text s => decidable_of_iff (s.all (· ∉ Html.specials)) List.all_iff_forall_prop
  | .escaped _ | .partialRef _ | .conditional .. | .negated .. | .each .. | .within .. =>
    isTrue trivial

/-- A text that is the escaped form of some text. -/
def IsEscaped (s : Text) : Prop := ∃ t, s = Html.escape t

/-- A rendering within the limit for partials writes escaped text, if it writes something. -/
def GivesEscaped (outcome : Except Fault Rendered) : Prop :=
  ∀ r, outcome = .ok r → r.WithinDepth → IsEscaped r.text

/-- Joining keeps text escaped. -/
theorem compatible_givesEscaped :
    CompatibleOn IsEscaped fun a (_ : Action Unit Rendered) => GivesEscaped (result a) := by
  refine compatibleOn_result (fun x _ => GivesEscaped x) ?_ ?_ ?_
  · intro s hs r hr _
    rw [← Except.ok.inj hr]
    exact hs
  · intro r hr
    contradiction
  · intro x y _ _ hx hy r hr hwithin
    obtain ⟨a, b, ha, hb, rfl⟩ := eq_ok_joined hr
    obtain ⟨s, hs⟩ := hx a ha fun d hd => hwithin d (mem_diagnostics_append.mpr (Or.inl hd))
    obtain ⟨t, ht⟩ := hy b hb fun d hd => hwithin d (mem_diagnostics_append.mpr (Or.inr hd))
    refine ⟨s ++ t, ?_⟩
    change a.text ++ b.text = _
    simp [hs, ht]

variable {sources : Sources}

/-- Nodes that write escaped text for themselves do so with their partials, if these do. -/
theorem givesEscaped_renderNodes {nodes : List Node}
    (hnodes : ∀ node ∈ nodesAll nodes, node.WritesEscaped)
    (embed : Text → Context → Action Unit Rendered)
    (hembed : ∀ name ∈ partialNamesAll nodes, ∀ ctx, GivesEscaped (result (embed name ctx)))
    (ctx : Context) : GivesEscaped (result (renderNodes embed nodes ctx)) := by
  suffices hcomparable : Comparable IsEscaped Eq
      (fun a (_ : Action Unit Rendered) => GivesEscaped (result a)) embed embed (nodesAll nodes) from
    compatible_givesEscaped.renderNodes keptInBodies_eq nodes hcomparable rfl
  refine { text := ?_, escaped := fun s => ⟨s, rfl⟩, raw := ?_, value := ?_, embed := ?_ }
  · exact fun s hs => ⟨s, (Html.escape_eq_self (hnodes _ hs)).symm⟩
  · exact fun path hpath => (hnodes _ hpath).elim
  · rintro node - path - ctx _ rfl
    rfl
  · rintro name hname ctx _ rfl
    exact hembed name ((mem_partialNamesAll_iff nodes).mpr hname) ctx

/-- Trees are rendered to escaped text if all trees in reach write it for themselves and no partial
in reach is missing. -/
theorem givesEscaped_renderTree (depth : Nat) (stack : List Text) (nodes : List Node)
    (hwrites : ∀ tree, InReach sources nodes tree → ∀ node ∈ nodesAll tree, node.WritesEscaped)
    (hfound : ∀ tree, InReach sources nodes tree → ∀ name ∈ partialNamesAll tree,
      sources name ≠ .ok none) (ctx : Context) :
    GivesEscaped (result (renderTree (loadFrom sources) depth stack nodes ctx)) := by
  induction depth generalizing stack nodes ctx with
  | zero =>
    let embed (name : Text) (_ : Context) : Action Unit Rendered := pure (.partialDepth stack name)
    refine givesEscaped_renderNodes (hwrites nodes (.refl nodes)) embed (fun name _ _ => ?_) ctx
    intro r hr hwithin
    rw [← Except.ok.inj hr] at hwithin
    exact absurd hwithin (not_withinDepth_partialDepth stack name)
  | succ depth ih =>
    obtain ⟨embed, hembed, hrender⟩ := exists_renderTree_succ sources depth stack
    rw [hrender]
    refine givesEscaped_renderNodes (hwrites nodes (.refl nodes)) embed (fun name hname ctx => ?_)
      ctx
    rw [hembed]
    intro r hr hwithin
    rcases embedFrom_eq_ok hr with ⟨hmissing, -⟩ | ⟨source, inner, hsource, hinner, rfl⟩
    · exact absurd hmissing (hfound nodes (.refl nodes) name hname)
    · exact ih _ _ (fun tree hreach => hwrites tree (.step hname hsource hreach))
        (fun tree hreach => hfound tree (.step hname hsource hreach)) ctx inner hinner
        fun d hd => hwithin d (List.mem_append_right _ hd)

/-- Templates are rendered to escaped text, which is tidied. -/
theorem givesEscaped_outcome (depth : Nat) (template : Text)
    (hwrites : ∀ tree, InReach sources (parse template).nodes tree →
      ∀ node ∈ nodesAll tree, node.WritesEscaped)
    (hfound : ∀ tree, InReach sources (parse template).nodes tree → ∀ name ∈ partialNamesAll tree,
      sources name ≠ .ok none) (ctx : Context) :
    GivesEscaped (outcome sources depth template ctx) := by
  intro r hr hwithin
  obtain ⟨inner, hinner, rfl⟩ := exists_of_outcome_eq_ok hr
  obtain ⟨s, hs⟩ := givesEscaped_renderTree depth [] _ hwrites hfound ctx inner hinner
    fun d hd => hwithin d (List.mem_append_right _ hd)
  refine ⟨Layout.tidy s, ?_⟩
  change Layout.tidy inner.text = _
  simp [hs]

end Template

open Template (InReach parse)

/-- **Escaping is complete.** Let neither a template nor a partial in its reach write a value as it
is, or have a text with a character that has a meaning in HTML, and let no partial be missing. If an
engine, whatever it was used for since it was built, renders the template in some context and no
partial is beyond the limit, then the text has no angle bracket and no quote, and each ampersand in
it begins an entity. -/
theorem Engine.isHarmless_render {settings : Settings} {base : Context} {tree : FileTree}
    {store? : Option Partials} {engine : Engine}
    (hbuild : build settings base tree store? = .ok engine) {template : Text}
    (hwrites : ∀ nodes, InReach (engine.partials.source tree) (parse template).nodes nodes →
      ∀ node ∈ Template.nodesAll nodes, node.WritesEscaped)
    (hfound : ∀ nodes, InReach (engine.partials.source tree) (parse template).nodes nodes →
      ∀ name ∈ Template.partialNamesAll nodes, engine.partials.source tree name ≠ .ok none)
    (calls : List Call) (messages : List Message) (ctx : Context) {rendered : Template.Rendered}
    (hrun : (Desk.render template ctx (Call.runAll calls ⟨engine, tree, messages⟩)).1 =
      .ok rendered) (hwithin : rendered.WithinDepth) : Html.IsHarmless rendered.text := by
  rw [render_runAll hbuild] at hrun
  obtain ⟨s, hs⟩ := Template.givesEscaped_outcome settings.maxPartialDepth template hwrites hfound
    _ rendered hrun hwithin
  rw [hs]
  exact Html.isHarmless_escape s

/-- A loop writes its items, which hold tags, quotes and an entity, through a partial, and the
blanks at the end are tidied. -/
theorem Engine.isHarmless_render_of_markup :
    let settings : Settings := {}
    let source : Text := "\x7b\x7bthis\x7d\x7d;".toList
    let store : Partials := (Partials.inMemory.register ['p'] source).2
    let tree : FileTree := ⟨[], []⟩
    let template : Text := "\x7b\x7b#each xs\x7d\x7d\x7b\x7b> p\x7d\x7d\x7b\x7b/each\x7d\x7d ".toList
    let ctx : Context := [(['x', 's'], .list [.text "<b>&lt;".toList,
      .mapping [(['k'], .text "'".toList)]])]
    let text : Text := "&lt;b&gt;&amp;lt;;\x7b&quot;k&quot;: &quot;&#39;&quot;\x7d;".toList
    ∃ engine, build settings [] tree (some store) = .ok engine ∧
      (Desk.render template ctx ⟨engine, tree, []⟩).1 = .ok ⟨text, []⟩ ∧ Html.IsHarmless text := by
  intro settings source store tree template ctx text
  have hbuild : build settings [] tree (some store) = .ok ⟨settings, [], store, .empty 256⟩ := rfl
  have hpartials : Template.partialNamesAll (parse template).nodes = [['p']] := by decide +kernel
  have hnone : Template.partialNamesAll (parse source).nodes = [] := by decide +kernel
  have hsource : store.source tree ['p'] = .ok (some source) := rfl
  have hreach {nodes : List Template.Node}
      (h : InReach (store.source tree) (parse template).nodes nodes) :
      nodes = (parse template).nodes ∨ nodes = (parse source).nodes :=
    (h.eq_or_of_partialNamesAll_eq_singleton hpartials hsource).imp_right fun h =>
      h.eq_of_partialNamesAll_eq_nil hnone
  have hwrites : ∀ nodes, InReach (store.source tree) (parse template).nodes nodes →
      ∀ node ∈ Template.nodesAll nodes, node.WritesEscaped := by
    intro nodes h
    rcases hreach h with rfl | rfl <;> decide +kernel
  have hfound : ∀ nodes, InReach (store.source tree) (parse template).nodes nodes →
      ∀ name ∈ Template.partialNamesAll nodes, store.source tree name ≠ .ok none := by
    intro nodes h name hname
    rcases hreach h with rfl | rfl
    · rw [hpartials, List.mem_singleton] at hname
      rw [hname]
      exact fun heq => Option.some_ne_none source (Except.ok.inj heq)
    · exact absurd (hnone ▸ hname) List.not_mem_nil
  have hrun : (Desk.render template ctx ⟨⟨settings, [], store, .empty 256⟩, tree, []⟩).1 =
      .ok ⟨text, []⟩ := Action.eq_ok_of_toOption (by decide +kernel)
  refine ⟨_, hbuild, hrun, ?_⟩
  exact isHarmless_render hbuild hwrites hfound [] [] ctx hrun (List.forall_mem_nil _)

end Stencil
