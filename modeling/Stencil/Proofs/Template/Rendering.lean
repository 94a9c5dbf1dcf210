import Stencil.Template.Render
import Stencil.Proofs.Simulation

/-!
# What rendering is made of

Rendering joins texts, the texts of values, and what partials give, one after the other. A relation
between renderings that holds of these pieces and is kept by joining holds of whole trees. Most
statements on rendering follow from this in a few lines, with no induction over trees of their own.
-/

namespace Stencil.Template

variable {σ τ : Type}

mutual

/-- The names of the partials that a node includes, at any depth. -/
def Node.partialNames : Node → List Text
  | .text _ => []
  | .escaped _ => []
  | .raw _ => []
  | .partialRef name => [name]
  | .conditional _ thenBody elseBody => partialNamesAll thenBody ++ partialNamesAll elseBody
  | .negated _ body => partialNamesAll body
  | .each _ body => partialNamesAll body
  | .within _ body => partialNamesAll body

/-- The names of the partials that nodes include, at any depth. -/
def partialNamesAll : List Node → List Text
  | [] => []
  | node :: rest => node.partialNames ++ partialNamesAll rest

end

mutual

/-- A node and the nodes in its bodies, at any depth. -/
def Node.nodes : Node → List Node
  | .text s => [.text s]
  | .escaped path => [.escaped path]
  | .raw path => [.raw path]
  | .partialRef name => [.partialRef name]
  | .conditional path thenBody elseBody =>
    .conditional path thenBody elseBody :: (nodesAll thenBody ++ nodesAll elseBody)
  | .negated path body => .negated path body :: nodesAll body
  | .each path body => .each path body :: nodesAll body
  | .within path body => .within path body :: nodesAll body

/-- Nodes and the nodes in their bodies, at any depth. -/
def nodesAll : List Node → List Node
  | [] => []
  | node :: rest => node.nodes ++ nodesAll rest

end

mutual

/-- A node includes the partials of the nodes in it that stand for partials. -/
@[simp] theorem Node.mem_partialNames_iff {name : Text} (node : Node) :
    name ∈ node.partialNames ↔ .partialRef name ∈ node.nodes := by
  cases node with
  | conditional path thenBody elseBody =>
    simp [Node.partialNames, Node.nodes, mem_partialNamesAll_iff thenBody,
      mem_partialNamesAll_iff elseBody]
  | negated path body => simp [Node.partialNames, Node.nodes, mem_partialNamesAll_iff body]
  | each path body => simp [Node.partialNames, Node.nodes, mem_partialNamesAll_iff body]
  | within path body => simp [Node.partialNames, Node.nodes, mem_partialNamesAll_iff body]
  | _ => simp [Node.partialNames, Node.nodes]

/-- Nodes include the partials of the nodes in them that stand for partials. -/
@[simp] theorem mem_partialNamesAll_iff {name : Text} (nodes : List Node) :
    name ∈ partialNamesAll nodes ↔ .partialRef name ∈ nodesAll nodes := by
  cases nodes with
  | nil => simp [partialNamesAll, nodesAll]
  | cons node rest =>
    simp [partialNamesAll, nodesAll, node.mem_partialNames_iff, mem_partialNamesAll_iff rest]

end

/-- The path that a node looks up itself, if it looks up one. -/
def Node.path? : Node → Option Text
  | .text _ => none
  | .escaped path => some path
  | .raw path => some path
  | .partialRef _ => none
  | .conditional path _ _ => some path
  | .negated path _ => some path
  | .each path _ => some path
  | .within path _ => some path

/-! ### Two renderings -/

/-- Two renderings one after the other. -/
def joined (a b : Action σ Rendered) : Action σ Rendered := do
  let first ← a
  let more ← b
  return first ++ more

/-- A relation between renderings that holds of some plain texts and of the only fault a value can
cause, and is kept by joining. -/
structure CompatibleOn (texts : Text → Prop)
    (rel : Action σ Rendered → Action τ Rendered → Prop) : Prop where
  text : ∀ s, texts s → rel (pure (.ofText s)) (pure (.ofText s))
  fault : rel (throw .integerTooLong) (throw .integerTooLong)
  joined : ∀ {a b : Action σ Rendered} {c d : Action τ Rendered}, rel a c → rel b d →
    rel (joined a b) (joined c d)

/-- A relation between renderings that is compatible on all texts. -/
abbrev Compatible (rel : Action σ Rendered → Action τ Rendered → Prop) : Prop :=
  CompatibleOn (fun _ => True) rel

/-- A relation between contexts that is kept where bodies are rendered: for an item of a loop, and
with the entries of a mapping on top. -/
structure KeptInBodies (scope : Context → Context → Prop) : Prop where
  item : ∀ {ctx ctx' : Context}, scope ctx ctx' → ∀ item index count,
    scope (itemContext ctx item index count) (itemContext ctx' item index count)
  entries : ∀ {ctx ctx' : Context}, scope ctx ctx' → ∀ entries,
    scope (Mapping.merge ctx entries) (Mapping.merge ctx' entries)

/-- Equal contexts stay equal. -/
theorem keptInBodies_eq : KeptInBodies Eq where
  item h _ _ _ := by rw [h]
  entries h _ := by rw [h]

/-- What a comparison needs to know of nodes: their texts and the texts of their values are such as
it holds of, their paths have equal values in the contexts that are compared, and their partials
are rendered to related results. -/
structure Comparable (texts : Text → Prop) (scope : Context → Context → Prop)
    (rel : Action σ Rendered → Action τ Rendered → Prop) (embed : Text → Context → Action σ Rendered)
    (embed' : Text → Context → Action τ Rendered) (nodes : List Node) : Prop where
  text : ∀ s, .text s ∈ nodes → texts s
  escaped : ∀ s, texts (Html.escape s)
  raw : ∀ path, .raw path ∈ nodes → ∀ s, texts s
  value : ∀ node ∈ nodes, ∀ path, node.path? = some path → ∀ ctx ctx', scope ctx ctx' →
    Context.resolve ctx path = Context.resolve ctx' path
  embed : ∀ name, .partialRef name ∈ nodes → ∀ ctx ctx', scope ctx ctx' →
    rel (embed name ctx) (embed' name ctx')

variable {texts : Text → Prop} {scope : Context → Context → Prop}
  {rel : Action σ Rendered → Action τ Rendered → Prop}
  {embed : Text → Context → Action σ Rendered} {embed' : Text → Context → Action τ Rendered}

/-- What is known of nodes is known of fewer nodes. -/
theorem Comparable.mono {nodes fewer : List Node} (h : Comparable texts scope rel embed embed' nodes)
    (hfewer : fewer ⊆ nodes) : Comparable texts scope rel embed embed' fewer where
  text s hs := h.text s (hfewer hs)
  escaped := h.escaped
  raw path hpath := h.raw path (hfewer hpath)
  value node hnode := h.value node (hfewer hnode)
  embed name hname := h.embed name (hfewer hname)

/-- The text of a value, changed by `f`, is plain text or a fault. -/
theorem CompatibleOn.pathText (h : CompatibleOn texts rel) {ctx ctx' : Context} {path : Text}
    (hvalue : ctx.resolve path = ctx'.resolve path) (f : Text → Text) (hf : ∀ s, texts (f s)) :
    rel (do return .ofText (f (← Template.pathText ctx path)))
      (do return .ofText (f (← Template.pathText ctx' path))) := by
  unfold Template.pathText
  rw [← hvalue]
  split
  · exact h.text _ (hf _)
  · exact h.fault

/-- Related bodies give related loops. -/
theorem CompatibleOn.renderEach (h : CompatibleOn texts rel) (hempty : texts [])
    {body : Nat → Value → Action σ Rendered} {body' : Nat → Value → Action τ Rendered}
    (hbody : ∀ index item, rel (body index item) (body' index item)) (index : Nat)
    (items : List Value) :
    rel (Template.renderEach body index items) (Template.renderEach body' index items) := by
  induction items generalizing index with
  | nil => exact h.text [] hempty
  | cons item rest ih => exact h.joined (hbody index item) (ih (index + 1))

mutual

/-- A node is rendered to related results in related contexts. -/
theorem CompatibleOn.renderNode (h : CompatibleOn texts rel) (hscope : KeptInBodies scope)
    (node : Node) (hnode : Comparable texts scope rel embed embed' node.nodes) {ctx ctx' : Context}
    (hctx : scope ctx ctx') :
    rel (Template.renderNode embed node ctx) (Template.renderNode embed' node ctx') := by
  have hempty : texts [] := hnode.escaped []
  cases node with
  | text s => exact h.text s (hnode.text s (List.mem_singleton_self _))
  | escaped path =>
    have hvalue := hnode.value _ (List.mem_singleton_self _) path rfl ctx ctx' hctx
    exact h.pathText hvalue Html.escape hnode.escaped
  | raw path =>
    have hvalue := hnode.value _ (List.mem_singleton_self _) path rfl ctx ctx' hctx
    exact h.pathText hvalue id (hnode.raw path (List.mem_singleton_self _))
  | partialRef name => exact hnode.embed name (List.mem_singleton_self _) ctx ctx' hctx
  | conditional path thenBody elseBody =>
    have hvalue := hnode.value _ List.mem_cons_self path rfl ctx ctx' hctx
    have hbodies := hnode.mono (List.subset_cons_self _ _)
    simp only [Template.renderNode, ← hvalue]
    split
    · exact h.renderNodes hscope thenBody (hbodies.mono (List.subset_append_left _ _)) hctx
    · exact h.renderNodes hscope elseBody (hbodies.mono (List.subset_append_right _ _)) hctx
  | negated path body =>
    have hvalue := hnode.value _ List.mem_cons_self path rfl ctx ctx' hctx
    simp only [Template.renderNode, ← hvalue]
    split
    · exact h.text [] hempty
    · exact h.renderNodes hscope body (hnode.mono (List.subset_cons_self _ _)) hctx
  | each path body =>
    have hvalue := hnode.value _ List.mem_cons_self path rfl ctx ctx' hctx
    simp only [Template.renderNode, ← hvalue]
    split
    · refine h.renderEach hempty (fun index item => ?_) 0 _
      exact h.renderNodes hscope body (hnode.mono (List.subset_cons_self _ _))
        (hscope.item hctx item index _)
    · exact h.text [] hempty
  | within path body =>
    have hvalue := hnode.value _ List.mem_cons_self path rfl ctx ctx' hctx
    simp only [Template.renderNode, ← hvalue]
    split
    · exact h.renderNodes hscope body (hnode.mono (List.subset_cons_self _ _))
        (hscope.entries hctx _)
    · exact h.text [] hempty

/-- Nodes are rendered to related results in related contexts. -/
theorem CompatibleOn.renderNodes (h : CompatibleOn texts rel) (hscope : KeptInBodies scope)
    (nodes : List Node) (hnodes : Comparable texts scope rel embed embed' (nodesAll nodes))
    {ctx ctx' : Context} (hctx : scope ctx ctx') :
    rel (Template.renderNodes embed nodes ctx) (Template.renderNodes embed' nodes ctx') := by
  cases nodes with
  | nil => exact h.text [] (hnodes.escaped [])
  | cons node rest =>
    exact h.joined
      (h.renderNode hscope node (hnodes.mono (List.subset_append_left _ _)) hctx)
      (h.renderNodes hscope rest (hnodes.mono (List.subset_append_right _ _)) hctx)

end

/-- Nodes are rendered to related results in one context, if the partials that they include are. -/
theorem Compatible.renderNodes (h : Compatible rel) (embed : Text → Context → Action σ Rendered)
    (embed' : Text → Context → Action τ Rendered) (nodes : List Node)
    (hembed : ∀ name ∈ partialNamesAll nodes, ∀ ctx, rel (embed name ctx) (embed' name ctx))
    (ctx : Context) :
    rel (Template.renderNodes embed nodes ctx) (Template.renderNodes embed' nodes ctx) := by
  refine CompatibleOn.renderNodes h keptInBodies_eq nodes ⟨fun _ _ => trivial, fun _ => trivial,
    fun _ _ _ => trivial, ?_, ?_⟩ rfl
  · rintro node - path - ctx _ rfl
    rfl
  · rintro name hname ctx _ rfl
    exact hembed name ((mem_partialNamesAll_iff nodes).mpr hname) ctx

/-! ### Whole templates -/

/-- A template is rendered by rendering its tree and tidying the text. -/
theorem render_eq_ok {load : Text → Action σ (Option Parsed)} {depth : Nat}
    {template : Parsed} {ctx : Context} {s : σ} {inner : Rendered}
    (h : (renderTree load depth [] template.nodes ctx s).1 = .ok inner) :
    (render load depth template ctx s).1 =
      .ok ⟨Layout.tidy inner.text, template.diagnostics ++ inner.diagnostics⟩ := by
  rw [render, Action.bind_run]
  split
  · next hrun =>
    rw [hrun] at h
    rw [Except.ok.inj h]
    rfl
  · next hrun =>
    rw [hrun] at h
    contradiction

/-! ### Partials from agreeing sources -/

/-- Agreement of operations is kept by all that rendering does. -/
theorem compatible_agrees (states : σ → τ → Prop) :
    Compatible (Action.Agrees (α := Rendered) states) where
  text _ _ := Action.agrees_pure _
  fault := Action.agrees_throw _
  joined ha hb := ha.bind fun _ => hb.bind fun _ => Action.agrees_pure _

/-- Trees are rendered in agreement, if the partials are loaded in agreement. -/
theorem renderTree_agrees {states : σ → τ → Prop} {load : Text → Action σ (Option Parsed)}
    {load' : Text → Action τ (Option Parsed)}
    (hload : ∀ name, Action.Agrees states (load name) (load' name)) (depth : Nat) (stack : List Text)
    (nodes : List Node) (ctx : Context) :
    Action.Agrees states (renderTree load depth stack nodes ctx)
      (renderTree load' depth stack nodes ctx) := by
  induction depth generalizing stack nodes ctx with
  | zero =>
    exact (compatible_agrees states).renderNodes _ _ nodes (fun _ _ _ => Action.agrees_pure _) ctx
  | succ depth ih =>
    refine (compatible_agrees states).renderNodes _ _ nodes (fun name _ ctx => ?_) ctx
    refine (hload name).bind fun found => ?_
    cases found with
    | none => exact Action.agrees_pure _
    | some parsed =>
      exact (ih (stack ++ [name]) parsed.nodes ctx).bind fun _ => Action.agrees_pure _

/-- Templates are rendered in agreement, if the partials are loaded in agreement. -/
theorem render_agrees {states : σ → τ → Prop} {load : Text → Action σ (Option Parsed)}
    {load' : Text → Action τ (Option Parsed)}
    (hload : ∀ name, Action.Agrees states (load name) (load' name)) (depth : Nat)
    (template : Parsed) (ctx : Context) :
    Action.Agrees states (render load depth template ctx) (render load' depth template ctx) :=
  (renderTree_agrees hload depth [] template.nodes ctx).bind fun _ => Action.agrees_pure _

end Stencil.Template
