import Stencil.Proofs.Template.PartialDepth

/-!
# Splicing the tree of a partial

A partial is rendered in the context at its place, so the nodes of its source may stand there
instead: rendering the spliced nodes is rendering the nodes with another way to render the partial.
The spliced nodes include what the partial includes, but one level less deep. Where no partial is
beyond the limit this does not show in the text.
-/

namespace Stencil.Template

variable {σ : Type}

mutual

/-- What stands for a node once the nodes `inner` stand in place of each partial of a name in it. -/
def Node.splice (name : Text) (inner : List Node) : Node → List Node
  | .text s => [.text s]
  | .escaped path => [.escaped path]
  | .raw path => [.raw path]
  | .partialRef other => if other = name then inner else [.partialRef other]
  | .conditional path thenBody elseBody =>
    [.conditional path (spliceAll name inner thenBody) (spliceAll name inner elseBody)]
  | .negated path body => [.negated path (spliceAll name inner body)]
  | .each path body => [.each path (spliceAll name inner body)]
  | .within path body => [.within path (spliceAll name inner body)]

/-- Nodes with the nodes `inner` in place of each partial of a name, at any depth. -/
def spliceAll (name : Text) (inner : List Node) : List Node → List Node
  | [] => []
  | node :: rest => node.splice name inner ++ spliceAll name inner rest

end

/-! ### Joining -/

/-- Nothing behind a rendered text changes nothing. -/
@[simp] theorem Rendered.append_empty (a : Rendered) : a ++ empty = a :=
  congrArg₂ mk (List.append_nil _) (List.append_nil _)

/-- Nothing before a rendered text changes nothing. -/
@[simp] theorem Rendered.empty_append (a : Rendered) : empty ++ a = a := rfl

/-- Rendered texts are joined from either side. -/
theorem Rendered.append_assoc (a b c : Rendered) : a ++ b ++ c = a ++ (b ++ c) :=
  congrArg₂ mk (List.append_assoc _ _ _) (List.append_assoc _ _ _)

/-- A rendering that gives nothing may be left out before another one. -/
@[simp] theorem joined_pure_empty_left (a : Action σ Rendered) : joined (pure .empty) a = a := by
  simp only [joined, pure_bind, Rendered.empty_append, bind_pure]

/-- A rendering that gives nothing may be left out behind another one. -/
@[simp] theorem joined_pure_empty_right (a : Action σ Rendered) : joined a (pure .empty) = a := by
  simp only [joined, pure_bind, Rendered.append_empty, bind_pure]

/-- Renderings are joined from either side. -/
theorem joined_assoc (a b c : Action σ Rendered) :
    joined (joined a b) c = joined a (joined b c) := by
  simp only [joined, bind_assoc, pure_bind, Rendered.append_assoc]

variable {embed : Text → Context → Action σ Rendered}

/-- A node is rendered alone as it is among others. -/
@[simp] theorem renderNodes_singleton (node : Node) (ctx : Context) :
    renderNodes embed [node] ctx = renderNode embed node ctx :=
  joined_pure_empty_right _

/-- Nodes behind others are rendered one after the other. -/
theorem renderNodes_append (nodes more : List Node) (ctx : Context) :
    renderNodes embed (nodes ++ more) ctx =
      joined (renderNodes embed nodes ctx) (renderNodes embed more ctx) := by
  induction nodes with
  | nil => exact (joined_pure_empty_left _).symm
  | cons node rest ih =>
    change joined _ (renderNodes embed (rest ++ more) ctx) = joined (joined _ _) _
    rw [ih, joined_assoc]

/-! ### Rendering spliced nodes -/

/-- Renders the nodes `inner` for the partials of a name, and other partials as `embed` does. -/
def embedSpliced (embed : Text → Context → Action σ Rendered) (name : Text) (inner : List Node)
    (other : Text) (ctx : Context) : Action σ Rendered :=
  if other = name then renderNodes embed inner ctx else embed other ctx

mutual

/-- A spliced node is rendered as the node is whose partials of the name stand for the nodes that
are spliced in. -/
theorem renderNodes_splice (name : Text) (inner : List Node) (node : Node) (ctx : Context) :
    renderNodes embed (node.splice name inner) ctx =
      renderNode (embedSpliced embed name inner) node ctx := by
  cases node with
  | text s => exact renderNodes_singleton _ ctx
  | escaped path => exact renderNodes_singleton _ ctx
  | raw path => exact renderNodes_singleton _ ctx
  | partialRef other =>
    simp only [Node.splice, renderNode, embedSpliced]
    split
    · rfl
    · exact renderNodes_singleton _ ctx
  | conditional path thenBody elseBody =>
    simp only [Node.splice, renderNodes_singleton, renderNode, renderNodes_spliceAll]
  | negated path body =>
    simp only [Node.splice, renderNodes_singleton, renderNode, renderNodes_spliceAll]
  | each path body =>
    simp only [Node.splice, renderNodes_singleton, renderNode, renderNodes_spliceAll]
  | within path body =>
    simp only [Node.splice, renderNodes_singleton, renderNode, renderNodes_spliceAll]

/-- Spliced nodes are rendered as the nodes are whose partials of the name stand for the nodes that
are spliced in. -/
theorem renderNodes_spliceAll (name : Text) (inner nodes : List Node) (ctx : Context) :
    renderNodes embed (spliceAll name inner nodes) ctx =
      renderNodes (embedSpliced embed name inner) nodes ctx := by
  cases nodes with
  | nil => rfl
  | cons node rest =>
    rw [spliceAll, renderNodes_append, renderNodes_splice name inner node,
      renderNodes_spliceAll name inner rest]
    rfl

end

/-! ### The text stays -/

/-- A result that does not report a partial beyond the limit has the text of the other result. -/
def SameTextWithinDepth (outcome other : Except Fault Rendered) : Prop :=
  ∀ r, outcome = .ok r → r.WithinDepth → ∃ r', other = .ok r' ∧ r'.text = r.text

/-- A report of a partial beyond the limit asks nothing of the other result. -/
theorem sameTextWithinDepth_partialDepth (stack : List Text) (name : Text)
    (other : Except Fault Rendered) :
    SameTextWithinDepth (.ok (.partialDepth stack name)) other := by
  intro r hr hwithin
  rw [← Except.ok.inj hr] at hwithin
  exact absurd hwithin (not_withinDepth_partialDepth stack name)

/-- Joining keeps texts that are the same within the limit. -/
theorem compatible_sameTextWithinDepth :
    Compatible fun a b : Action Unit Rendered => SameTextWithinDepth (result a) (result b) := by
  refine compatibleOn_result SameTextWithinDepth ?_ ?_ ?_
  · intro s _ r h _
    exact ⟨r, h, rfl⟩
  · intro r h
    contradiction
  · intro x y z w hx hy r hr hwithin
    obtain ⟨a, b, rfl, rfl, rfl⟩ := eq_ok_joined hr
    obtain ⟨a', rfl, ha⟩ := hx a rfl fun d hd => hwithin d (List.mem_append_left _ hd)
    obtain ⟨b', rfl, hb⟩ := hy b rfl fun d hd => hwithin d (List.mem_append_right _ hd)
    exact ⟨a' ++ b', rfl, congrArg₂ (· ++ ·) ha hb⟩

variable {sources : Sources}

/-- What a partial gives within the limit has the text of the nodes of its source, rendered in its
place with the limit of its surroundings. -/
theorem sameTextWithinDepth_embedFrom {name source : Text}
    (hsource : sources name = .ok (some source)) (depth : Nat) (stack : List Text) (ctx : Context) :
    SameTextWithinDepth (embedFrom sources depth stack name ctx)
      (result (renderTree (loadFrom sources) (depth + 1) stack (parse source).nodes ctx)) := by
  intro r hr hwithin
  rcases embedFrom_eq_ok hr with ⟨hnone, -⟩ | ⟨source', inner, hsource', hinner, rfl⟩
  · rw [hsource] at hnone
    exact nomatch Except.ok.inj hnone
  · rw [hsource] at hsource'
    obtain rfl := Option.some.inj (Except.ok.inj hsource')
    have hwithinInner : inner.WithinDepth := fun d hd => hwithin d (List.mem_append_right _ hd)
    exact ⟨inner, agreesWithinDepth_renderTree (Nat.le_succ depth) (stack ++ [name]) stack _ ctx
      inner hinner hwithinInner, rfl⟩

/-- Splicing the tree of a partial keeps the text of nodes, if no partial is beyond the limit. -/
theorem sameTextWithinDepth_spliceAll {name source : Text}
    (hsource : sources name = .ok (some source)) (depth : Nat) (stack : List Text)
    (nodes : List Node) (ctx : Context) :
    SameTextWithinDepth (result (renderTree (loadFrom sources) depth stack nodes ctx))
      (result (renderTree (loadFrom sources) depth stack
        (spliceAll name (parse source).nodes nodes) ctx)) := by
  cases depth with
  | zero =>
    let embed (other : Text) (_ : Context) : Action Unit Rendered :=
      pure (.partialDepth stack other)
    change SameTextWithinDepth (result (renderNodes embed nodes ctx))
      (result (renderNodes embed (spliceAll _ _ nodes) ctx))
    rw [renderNodes_spliceAll]
    refine compatible_sameTextWithinDepth.renderNodes _ _ nodes (fun other _ _ => ?_) ctx
    exact sameTextWithinDepth_partialDepth stack other _
  | succ depth =>
    obtain ⟨embed, hembed, hrender⟩ := exists_renderTree_succ sources depth stack
    have hinner (ctx : Context) := sameTextWithinDepth_embedFrom hsource depth stack ctx
    rw [hrender] at hinner ⊢
    rw [renderNodes_spliceAll]
    refine compatible_sameTextWithinDepth.renderNodes _ _ nodes (fun other _ ctx => ?_) ctx
    unfold embedSpliced
    split
    · next hname =>
      rw [hembed, hname]
      exact hinner ctx
    · exact fun r hr _ => ⟨r, hr, rfl⟩

end Stencil.Template
