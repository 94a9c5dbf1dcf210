import Stencil.Proofs.Template.Reading
import Stencil.Proofs.Template.Rendering

/-!
# The depth of partials

Partials may include each other in any way, so the depth to which they are rendered is limited. A
partial beyond the limit is reported together with the names that lead to it: a chain from the
template through the sources of partials that is one longer than the limit. Where no such report is
made the limit has no influence on the result.
-/

namespace Stencil.Template

/-- Sources of partials by name: whether there is one, or why it cannot be read. -/
abbrev Sources := Text → Except Fault (Option Text)

/-- Names that lead from nodes to a partial: the first is included by the nodes, and each further
one by the source of the one before it. -/
def IsIncludeChain (sources : Sources) (nodes : List Node) : List Text → Prop
  | [] => True
  | name :: rest =>
    name ∈ partialNamesAll nodes ∧
      (rest = [] ∨ ∃ source, sources name = .ok (some source) ∧
        IsIncludeChain sources (parse source).nodes rest)

/-- The trees from which a rendering of nodes can write: the nodes, and the trees in reach of the
partials that they include. -/
inductive InReach (sources : Sources) : List Node → List Node → Prop
  | refl (nodes : List Node) : InReach sources nodes nodes
  | step {nodes reached : List Node} {name source : Text} (hname : name ∈ partialNamesAll nodes)
      (hsource : sources name = .ok (some source))
      (hreached : InReach sources (parse source).nodes reached) : InReach sources nodes reached

/-- From nodes without partials nothing else is in reach. -/
theorem InReach.eq_of_partialNamesAll_eq_nil {sources : Sources} {nodes reached : List Node}
    (h : InReach sources nodes reached) (hnone : partialNamesAll nodes = []) : reached = nodes := by
  cases h with
  | refl => rfl
  | step hname => exact absurd (hnone ▸ hname) List.not_mem_nil

/-- From nodes that include one partial, that is in reach what is so from its source. -/
theorem InReach.eq_or_of_partialNamesAll_eq_singleton {sources : Sources}
    {nodes reached : List Node} (h : InReach sources nodes reached) {name source : Text}
    (hone : partialNamesAll nodes = [name]) (hsource : sources name = .ok (some source)) :
    reached = nodes ∨ InReach sources (parse source).nodes reached := by
  cases h with
  | refl => exact Or.inl rfl
  | step hname hother hreached =>
    rw [hone, List.mem_singleton] at hname
    rw [hname, hsource] at hother
    obtain rfl := Option.some.inj (Except.ok.inj hother)
    exact Or.inr hreached

/-- Whether a diagnostic reports a partial beyond the limit. -/
def Diagnostic.IsDepth (d : Diagnostic) : Prop := d.kind = "partial_depth".toList

/-- No diagnostic of a rendering reports a partial beyond the limit. -/
def Rendered.WithinDepth (r : Rendered) : Prop := ∀ d ∈ r.diagnostics, ¬ d.IsDepth

/-- What stands for a partial beyond the limit reports it. -/
theorem not_withinDepth_partialDepth (stack : List Text) (name : Text) :
    ¬ (Rendered.partialDepth stack name).WithinDepth := fun h =>
  h (.partialDepth stack name) (List.mem_singleton_self _) rfl

/-- A partial that is not found is no partial beyond the limit. -/
theorem not_isDepth_missingPartial (name : Text) : ¬ (Diagnostic.missingPartial name).IsDepth := by
  intro h
  exact absurd (String.toList_inj.mp h) (by decide)

/-- An unmatched block is no partial beyond the limit. -/
theorem not_isDepth_unmatchedBlock (kind : BlockKind) (opener : Text) :
    ¬ (Diagnostic.unmatchedBlock kind opener).IsDepth := by
  intro h
  exact absurd (String.toList_inj.mp h) (by decide)

/-- Reading a template reports no partial beyond the limit. -/
theorem not_isDepth_of_mem_parse {s : Text} {d : Diagnostic} (h : d ∈ (parse s).diagnostics) :
    ¬ d.IsDepth := by
  obtain ⟨kind, opener, rfl⟩ := exists_unmatchedBlock_of_mem_parseBare h
  exact not_isDepth_unmatchedBlock kind opener

/-! ### Rendering from given sources -/

/-- Loads the tree of a partial from given sources. -/
def loadFrom (sources : Sources) (name : Text) : Action Unit (Option Parsed) :=
  Action.reading fun _ => (sources name).map (·.map parse)

/-- What an operation without a state of its own results in. -/
def result {α : Type} (action : Action Unit α) : Except Fault α := (action ()).1

/-- The result of an operation with a second one behind it. -/
@[simp] theorem result_bind {α β : Type} (a : Action Unit α) (f : α → Action Unit β) :
    result (a >>= f) = result a >>= fun x => result (f x) := by
  rw [result, Action.bind_run]
  unfold result
  rcases a () with ⟨_ | _, _⟩ <;> rfl

/-- A relation between results that holds of some texts and of the fault of a value, and is kept by
joining, is compatible with rendering on these texts. -/
theorem compatibleOn_result {texts : Text → Prop}
    (rel : Except Fault Rendered → Except Fault Rendered → Prop)
    (htext : ∀ s, texts s → rel (.ok (.ofText s)) (.ok (.ofText s)))
    (hfault : rel (.error .integerTooLong) (.error .integerTooLong))
    (hjoined : ∀ {x y z w}, rel x z → rel y w →
      rel (do return (← x) ++ (← y)) (do return (← z) ++ (← w))) :
    CompatibleOn texts fun a b => rel (result a) (result b) where
  text := htext
  fault := hfault
  joined ha hb := by
    simp only [joined, result_bind]
    exact hjoined ha hb

variable {sources : Sources}

/-- What a partial below the limit gives: its source is rendered with its name on the stack. -/
def embedFrom (sources : Sources) (depth : Nat) (stack : List Text) (name : Text) (ctx : Context) :
    Except Fault Rendered := do
  match ← sources name with
  | none => return .missingPartial name
  | some source =>
    let inner ← result
      (renderTree (loadFrom sources) depth (stack ++ [name]) (parse source).nodes ctx)
    return ⟨inner.text, (parse source).diagnostics ++ inner.diagnostics⟩

/-- Below the limit partials are rendered from their sources. -/
theorem exists_renderTree_succ (sources : Sources) (depth : Nat) (stack : List Text) :
    ∃ embed : Text → Context → Action Unit Rendered,
      (∀ name ctx, result (embed name ctx) = embedFrom sources depth stack name ctx) ∧
      renderTree (loadFrom sources) (depth + 1) stack = renderNodes embed := by
  refine ⟨_, fun name ctx => ?_, rfl⟩
  rw [result_bind, embedFrom]
  have hload : result (loadFrom sources name) = (sources name).map (·.map parse) := rfl
  rw [hload]
  rcases sources name with _ | _ | source
  · rfl
  · rfl
  · change result (renderTree _ _ _ _ _ >>= _) = _
    rw [result_bind]
    rfl

/-! ### What is reported and how rendering fails -/

/-- A chain through one more partial, whose source begins it. -/
theorem IsIncludeChain.cons {nodes : List Node} {name source : Text} {names : List Text}
    (hname : name ∈ partialNamesAll nodes) (hsource : sources name = .ok (some source))
    (hnames : IsIncludeChain sources (parse source).nodes names) :
    IsIncludeChain sources nodes (name :: names) := by
  exact ⟨hname, Or.inr ⟨source, hsource, hnames⟩⟩

/-- The diagnostics of two renderings one after the other come from either. -/
@[simp] theorem mem_diagnostics_append {a b : Rendered} {d : Diagnostic} :
    d ∈ (a ++ b).diagnostics ↔ d ∈ a.diagnostics ∨ d ∈ b.diagnostics := List.mem_append

/-- Two results one after the other are there if both are, and are joined. -/
theorem eq_ok_joined {x y : Except Fault Rendered} {r : Rendered}
    (h : (do return (← x) ++ (← y)) = Except.ok r) :
    ∃ a b, x = .ok a ∧ y = .ok b ∧ r = a ++ b := by
  cases x with
  | error => contradiction
  | ok a =>
    cases y with
    | error => contradiction
    | ok b => exact ⟨a, b, rfl, rfl, (Except.ok.inj h).symm⟩

/-- What a partial below the limit gives, if it gives something. -/
theorem embedFrom_eq_ok {depth : Nat} {stack : List Text} {name : Text} {ctx : Context}
    {r : Rendered} (h : embedFrom sources depth stack name ctx = .ok r) :
    (sources name = .ok none ∧ r = .missingPartial name) ∨
    ∃ source inner, sources name = .ok (some source) ∧
      result (renderTree (loadFrom sources) depth (stack ++ [name]) (parse source).nodes ctx) =
        .ok inner ∧ r = ⟨inner.text, (parse source).diagnostics ++ inner.diagnostics⟩ := by
  unfold embedFrom at h
  cases hsource : sources name with
  | error =>
    rw [hsource] at h
    contradiction
  | ok found =>
    rw [hsource] at h
    cases found with
    | none => exact Or.inl ⟨rfl, (Except.ok.inj h).symm⟩
    | some source =>
      right
      cases hinner : result (renderTree (loadFrom sources) depth (stack ++ [name])
        (parse source).nodes ctx) with
      | error fault =>
        change (result _ >>= _) = _ at h
        rw [hinner] at h
        contradiction
      | ok inner =>
        change (result _ >>= _) = _ at h
        rw [hinner] at h
        exact ⟨source, inner, rfl, hinner, (Except.ok.inj h).symm⟩

/-- Every report of a partial beyond the limit names a chain of a given length that begins at the
nodes, below the partials on the stack. -/
def ReportsChains (sources : Sources) (nodes : List Node) (stack : List Text) (length : Nat)
    (outcome : Except Fault Rendered) : Prop :=
  ∀ r, outcome = .ok r → ∀ d ∈ r.diagnostics, d.IsDepth → ∃ names, names.length = length ∧
    d.detail = List.intercalate " > ".toList (stack ++ names) ∧
    IsIncludeChain sources nodes names

/-- Reports stay reports of chains when renderings are joined. -/
theorem compatible_reportsChains (nodes : List Node) (stack : List Text) (length : Nat) :
    Compatible fun a (_ : Action Unit Rendered) =>
      ReportsChains sources nodes stack length (result a) := by
  refine compatibleOn_result (fun x _ => ReportsChains sources nodes stack length x) ?_ ?_ ?_
  · intro s _ r hr d hd
    rw [← Except.ok.inj hr] at hd
    exact absurd hd List.not_mem_nil
  · intro r hr
    contradiction
  · intro x y _ _ hx hy r hr d hd
    obtain ⟨a, b, rfl, rfl, rfl⟩ := eq_ok_joined hr
    rcases mem_diagnostics_append.mp hd with hd | hd
    · exact hx a rfl d hd
    · exact hy b rfl d hd

/-- The chains that are reported are one longer than the depth that is left. -/
theorem reportsChains_renderTree (depth : Nat) (stack : List Text) (nodes : List Node)
    (ctx : Context) : ReportsChains sources nodes stack (depth + 1)
      (result (renderTree (loadFrom sources) depth stack nodes ctx)) := by
  induction depth generalizing stack nodes ctx with
  | zero =>
    let embed (name : Text) (_ : Context) : Action Unit Rendered := pure (.partialDepth stack name)
    refine (compatible_reportsChains nodes stack 1).renderNodes embed embed nodes
      (fun name hname _ => ?_) ctx
    intro r hr d hd _
    rw [← Except.ok.inj hr] at hd
    obtain rfl := List.mem_singleton.mp hd
    exact ⟨[name], rfl, rfl, hname, Or.inl rfl⟩
  | succ depth ih =>
    obtain ⟨embed, hembed, hrender⟩ := exists_renderTree_succ sources depth stack
    rw [hrender]
    refine (compatible_reportsChains nodes stack (depth + 2)).renderNodes embed embed nodes
      (fun name hname ctx => ?_) ctx
    rw [hembed]
    intro r hr d hd hdepth
    rcases embedFrom_eq_ok hr with ⟨-, rfl⟩ | ⟨source, inner, hsource, hinner, rfl⟩
    · obtain rfl := List.mem_singleton.mp hd
      exact absurd hdepth (not_isDepth_missingPartial name)
    · rcases List.mem_append.mp hd with hd | hd
      · exact absurd hdepth (not_isDepth_of_mem_parse hd)
      · obtain ⟨names, hlength, hdetail, hnames⟩ := ih _ _ _ inner hinner d hd hdepth
        refine ⟨name :: names, by rw [List.length_cons, hlength], ?_, .cons hname hsource hnames⟩
        rw [hdetail, List.append_assoc, List.singleton_append]

/-- A rendering fails only because a value is an integer that is too long, or because the source of
a partial in reach cannot be read. -/
def FailsBySources (sources : Sources) (nodes : List Node) (depth : Nat)
    (outcome : Except Fault Rendered) : Prop :=
  ∀ fault, outcome = .error fault → fault = .integerTooLong ∨
    ∃ names name, names.length < depth ∧ IsIncludeChain sources nodes (names ++ [name]) ∧
      sources name = .error fault

/-- A joined rendering fails as one of its parts does. -/
theorem eq_error_joined {x y : Except Fault Rendered} {fault : Fault}
    (h : (do return (← x) ++ (← y)) = Except.error fault) :
    x = .error fault ∨ y = .error fault := by
  cases x with
  | error => exact Or.inl h
  | ok a =>
    cases y with
    | error => exact Or.inr h
    | ok b => contradiction

/-- Joining adds no ways to fail. -/
theorem compatible_failsBySources (nodes : List Node) (depth : Nat) :
    Compatible fun a (_ : Action Unit Rendered) =>
      FailsBySources sources nodes depth (result a) := by
  refine compatibleOn_result (fun x _ => FailsBySources sources nodes depth x) ?_ ?_ ?_
  · intro s _ fault h
    contradiction
  · intro fault h
    exact Or.inl (Except.error.inj h).symm
  · intro x y _ _ hx hy fault h
    rcases eq_error_joined h with h | h
    · exact hx fault h
    · exact hy fault h

/-- What a partial below the limit gives, if it fails. -/
theorem embedFrom_eq_error {depth : Nat} {stack : List Text} {name : Text} {ctx : Context}
    {fault : Fault} (h : embedFrom sources depth stack name ctx = .error fault) :
    sources name = .error fault ∨
    ∃ source, sources name = .ok (some source) ∧
      result (renderTree (loadFrom sources) depth (stack ++ [name]) (parse source).nodes ctx) =
        .error fault := by
  unfold embedFrom at h
  cases hsource : sources name with
  | error =>
    rw [hsource] at h
    exact Or.inl (congrArg Except.error (Except.error.inj h))
  | ok found =>
    rw [hsource] at h
    cases found with
    | none => contradiction
    | some source =>
      right
      refine ⟨source, rfl, ?_⟩
      change (result _ >>= _) = _ at h
      cases hinner : result (renderTree (loadFrom sources) depth (stack ++ [name])
        (parse source).nodes ctx) with
      | error fault =>
        rw [hinner] at h
        exact h
      | ok inner =>
        rw [hinner] at h
        contradiction

/-- Rendering ends with a result, unless a value or the source of a partial in reach is at fault. -/
theorem failsBySources_renderTree (depth : Nat) (stack : List Text) (nodes : List Node)
    (ctx : Context) : FailsBySources sources nodes depth
      (result (renderTree (loadFrom sources) depth stack nodes ctx)) := by
  induction depth generalizing stack nodes ctx with
  | zero =>
    let embed (name : Text) (_ : Context) : Action Unit Rendered := pure (.partialDepth stack name)
    refine (compatible_failsBySources nodes 0).renderNodes embed embed nodes
      (fun name _ _ => ?_) ctx
    intro fault h
    contradiction
  | succ depth ih =>
    obtain ⟨embed, hembed, hrender⟩ := exists_renderTree_succ sources depth stack
    rw [hrender]
    refine (compatible_failsBySources nodes (depth + 1)).renderNodes embed embed nodes
      (fun name hname ctx => ?_) ctx
    rw [hembed]
    intro fault h
    rcases embedFrom_eq_error h with hsource | ⟨source, hsource, hinner⟩
    · exact Or.inr ⟨[], name, Nat.succ_pos depth, ⟨hname, Or.inl rfl⟩, hsource⟩
    · rcases ih _ _ _ fault hinner with hlong | ⟨names, last, hlength, hnames, hlast⟩
      · exact Or.inl hlong
      · exact Or.inr ⟨name :: names, last, Nat.succ_lt_succ hlength,
          .cons hname hsource hnames, hlast⟩

/-! ### The limit has no influence -/

/-- A result that does not report a partial beyond the limit is the other result, too. -/
def AgreesWithinDepth (outcome other : Except Fault Rendered) : Prop :=
  ∀ r, outcome = .ok r → r.WithinDepth → other = .ok r

/-- Joining keeps results that do not report a partial beyond the limit. -/
theorem compatible_agreesWithinDepth :
    Compatible fun a b : Action Unit Rendered => AgreesWithinDepth (result a) (result b) := by
  refine compatibleOn_result AgreesWithinDepth ?_ ?_ ?_
  · intro s _ r h _
    exact h
  · intro r h
    contradiction
  · intro x y z w hx hy r hr hwithin
    obtain ⟨a, b, rfl, rfl, rfl⟩ := eq_ok_joined hr
    have ha : a.WithinDepth := fun d hd => hwithin d (mem_diagnostics_append.mpr (Or.inl hd))
    have hb : b.WithinDepth := fun d hd => hwithin d (mem_diagnostics_append.mpr (Or.inr hd))
    rw [hx a rfl ha, hy b rfl hb]
    rfl

/-- Raising the limit changes no result that does not report a partial beyond it, whatever partials
are on the stack. -/
theorem agreesWithinDepth_renderTree {depth deeper : Nat} (h : depth ≤ deeper)
    (stack stack' : List Text) (nodes : List Node) (ctx : Context) :
    AgreesWithinDepth (result (renderTree (loadFrom sources) depth stack nodes ctx))
      (result (renderTree (loadFrom sources) deeper stack' nodes ctx)) := by
  induction depth generalizing deeper stack stack' nodes ctx with
  | zero =>
    have hzero (embed : Text → Context → Action Unit Rendered) :
        AgreesWithinDepth (result (renderTree (loadFrom sources) 0 stack nodes ctx))
          (result (renderNodes embed nodes ctx)) := by
      refine compatible_agreesWithinDepth.renderNodes _ _ nodes (fun name _ _ => ?_) ctx
      intro r hr hwithin
      rw [← Except.ok.inj hr] at hwithin
      exact absurd hwithin (not_withinDepth_partialDepth stack name)
    cases deeper <;> exact hzero _
  | succ depth ih =>
    obtain ⟨deeper, rfl⟩ : ∃ n, deeper = n + 1 := ⟨deeper - 1, by omega⟩
    obtain ⟨embed, hembed, hrender⟩ := exists_renderTree_succ sources depth stack
    obtain ⟨embed', hembed', hrender'⟩ := exists_renderTree_succ sources deeper stack'
    rw [hrender, hrender']
    refine compatible_agreesWithinDepth.renderNodes _ _ nodes (fun name _ ctx => ?_) ctx
    rw [hembed, hembed']
    intro r hr hwithin
    rcases embedFrom_eq_ok hr with ⟨hsource, rfl⟩ | ⟨source, inner, hsource, hinner, rfl⟩
    · rw [embedFrom, hsource]
      rfl
    · have hwithinInner : inner.WithinDepth := fun d hd =>
        hwithin d (List.mem_append_right _ hd)
      have hdeeper :=
        ih (Nat.le_of_succ_le_succ h) _ (stack' ++ [name]) _ _ inner hinner hwithinInner
      rw [embedFrom, hsource]
      change (result _ >>= _) = _
      rw [hdeeper]
      rfl

/-! ### Whole templates -/

/-- What sources, a depth for partials and a context give for a template. -/
def outcome (sources : Sources) (depth : Nat) (template : Text) (ctx : Context) :
    Except Fault Rendered :=
  result (render (loadFrom sources) depth (parse template) ctx)

/-- The outcome for a template is that for its tree, with a tidy text and the diagnostics of its
reading in front. -/
theorem outcome_eq (sources : Sources) (depth : Nat) (template : Text) (ctx : Context) :
    outcome sources depth template ctx =
      (result (renderTree (loadFrom sources) depth [] (parse template).nodes ctx)).map
        fun inner =>
          ⟨Layout.tidy inner.text, (parse template).diagnostics ++ inner.diagnostics⟩ := by
  rw [outcome, render, result_bind]
  cases result (renderTree (loadFrom sources) depth [] (parse template).nodes ctx) <;> rfl

/-- An outcome comes from one for the tree. -/
theorem exists_of_outcome_eq_ok {depth : Nat} {template : Text} {ctx : Context} {r : Rendered}
    (h : outcome sources depth template ctx = .ok r) :
    ∃ inner,
      result (renderTree (loadFrom sources) depth [] (parse template).nodes ctx) = .ok inner ∧
      r = ⟨Layout.tidy inner.text, (parse template).diagnostics ++ inner.diagnostics⟩ := by
  rw [outcome_eq] at h
  cases htree : result (renderTree (loadFrom sources) depth [] (parse template).nodes ctx) with
  | error fault =>
    rw [htree] at h
    contradiction
  | ok inner =>
    rw [htree] at h
    exact ⟨inner, rfl, (Except.ok.inj h).symm⟩

/-- The chains that a template reports are one longer than the depth. -/
theorem reportsChains_outcome (depth : Nat) (template : Text) (ctx : Context) :
    ReportsChains sources (parse template).nodes [] (depth + 1)
      (outcome sources depth template ctx) := by
  intro r hr d hd hdepth
  obtain ⟨inner, hinner, rfl⟩ := exists_of_outcome_eq_ok hr
  rcases List.mem_append.mp hd with hd | hd
  · exact absurd hdepth (not_isDepth_of_mem_parse hd)
  · exact reportsChains_renderTree depth [] _ ctx inner hinner d hd hdepth

/-- A template is rendered, unless a value or the source of a partial in reach is at fault. -/
theorem failsBySources_outcome (depth : Nat) (template : Text) (ctx : Context) :
    FailsBySources sources (parse template).nodes depth
      (outcome sources depth template ctx) := by
  intro fault h
  rw [outcome_eq] at h
  refine failsBySources_renderTree depth [] _ ctx fault ?_
  cases htree : result (renderTree (loadFrom sources) depth [] (parse template).nodes ctx) with
  | error => rw [htree] at h; exact h
  | ok inner => rw [htree] at h; contradiction

/-- Raising the limit changes no outcome that does not report a partial beyond it. -/
theorem agreesWithinDepth_outcome {depth deeper : Nat} (h : depth ≤ deeper) (template : Text)
    (ctx : Context) :
    AgreesWithinDepth (outcome sources depth template ctx)
      (outcome sources deeper template ctx) := by
  intro r hr hwithin
  obtain ⟨inner, hinner, rfl⟩ := exists_of_outcome_eq_ok hr
  have hwithinInner : inner.WithinDepth := fun d hd => hwithin d (List.mem_append_right _ hd)
  rw [outcome_eq, agreesWithinDepth_renderTree h [] [] _ ctx inner hinner hwithinInner]
  rfl

end Stencil.Template
