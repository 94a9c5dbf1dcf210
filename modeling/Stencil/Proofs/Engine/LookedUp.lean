import Stencil.Proofs.Engine.Calls
import Stencil.Proofs.Value.Resolve

/-!
# What a rendering looks up

The look-up of a path begins at one key of the context: the first name of the path, or the whole
path if it has the sign. The bodies of blocks are rendered in larger contexts, but what is written
on top comes from values that were looked up before. So a rendering depends on the context only
through the keys at which the paths of its template begin, and those of the partials in reach.
-/

namespace Stencil

namespace Context

/-! ### Contexts that agree -/

/-- The value at a key; null if there is none. -/
def valueAt (ctx : Context) (key : Text) : Value := (Mapping.get? ctx key).getD .null

/-- The key at which the look-up of a path begins: the path itself if it has the sign, and else
what stands before its first point. -/
def rootKey (path : Text) : Text :=
  if path.head? == some '@' then path else path.takeWhile (· != '.')

/-- Two contexts have the same values at some keys. -/
def AgreeOn (keys : Text → Prop) (ctx ctx' : Context) : Prop :=
  ∀ key, keys key → ctx.valueAt key = ctx'.valueAt key

variable {keys : Text → Prop} {ctx ctx' : Context}

/-- Fewer keys are agreed on, too. -/
theorem AgreeOn.mono {fewer : Text → Prop} (h : AgreeOn keys ctx ctx')
    (hfewer : ∀ key, fewer key → keys key) : AgreeOn fewer ctx ctx' :=
  fun key hkey => h key (hfewer key hkey)

/-- Contexts still agree when a value is written in both. -/
theorem AgreeOn.set (h : AgreeOn keys ctx ctx') (key : Text) (value : Value) :
    AgreeOn keys (Mapping.set ctx key value) (Mapping.set ctx' key value) := by
  intro other hother
  unfold valueAt
  by_cases hsame : other = key
  · simp [hsame]
  · simpa [hsame, valueAt] using h other hother

/-- Contexts still agree when entries are written on top of both. -/
theorem AgreeOn.merge (h : AgreeOn keys ctx ctx') (entries : Context) :
    AgreeOn keys (Mapping.merge ctx entries) (Mapping.merge ctx' entries) := by
  induction entries generalizing ctx ctx' with
  | nil => exact h
  | cons entry rest ih => exact ih (h.set entry.1 entry.2)

/-- Contexts that agree do so in the bodies of blocks. -/
theorem keptInBodies_agreeOn (keys : Text → Prop) : Template.KeptInBodies (AgreeOn keys) where
  entries h entries := h.merge entries
  item h item index count := by
    have hplaced := (h.set thisWord item).merge (Template.placeNames index count)
    unfold Template.itemContext
    split
    · exact hplaced.merge _
    · exact hplaced

/-- A path without the sign begins with the name before its first point. -/
theorem exists_splitOn_eq_rootKey {path : Text} (hsign : path.head? ≠ some '@') :
    ∃ rest, path.splitOn '.' = rootKey path :: rest := by
  have hroot : rootKey path = path.takeWhile (· != '.') := if_neg (by simpa using hsign)
  have hname {name : Text} (hpoint : '.' ∉ name) : ∀ c ∈ name, (c != '.') = true := by
    intro c hc
    simpa using fun heq : c = '.' => hpoint (heq ▸ hc)
  rw [hroot]
  by_cases hpoint : '.' ∈ path
  · obtain ⟨name, t, rfl, hnone⟩ := List.eq_append_cons_of_mem hpoint
    rw [List.takeWhile_append_of_pos (hname hnone), List.takeWhile_cons_of_neg (by simp),
      List.append_nil]
    exact ⟨_, List.splitOn_append_cons_self_of_not_mem hnone t⟩
  · rw [List.takeWhile_eq_self_iff.mpr (hname hpoint)]
    exact ⟨[], List.splitOn_eq_singleton hpoint⟩

/-- The mapping at a key is what the value there holds. -/
theorem inner_eq (ctx : Context) (key : Text) :
    Assignment.inner ctx key = (ctx.valueAt key).mapping?.getD [] := by
  unfold Assignment.inner valueAt
  cases Mapping.get? ctx key with
  | none => rfl
  | some value => cases value <;> rfl

/-- No names lead anywhere from nothing. -/
@[simp] theorem walk_nil (names : List Text) : walk [] names = .null := by
  match names with
  | [] => rfl
  | [_] => rfl
  | _ :: _ :: _ => rfl

/-- Names behind the first one are followed in the mapping at the first one. -/
@[simp] theorem walk_cons_cons (ctx : Context) (name next : Text) (rest : List Text) :
    walk ctx (name :: next :: rest) = walk (Assignment.inner ctx name) (next :: rest) := by
  cases hget : Mapping.get? ctx name with
  | none => simp [walk, Assignment.inner, hget]
  | some value => cases value <;> simp [walk, Assignment.inner, hget]

/-- Names are followed to the same value in contexts that agree on the first one. -/
theorem walk_eq_of_valueAt {name : Text} (h : ctx.valueAt name = ctx'.valueAt name)
    (rest : List Text) : walk ctx (name :: rest) = walk ctx' (name :: rest) := by
  cases rest with
  | nil => exact h
  | cons next rest => simp [inner_eq, h]

/-- A path has the same value in contexts that agree on the key at which it begins. -/
theorem resolve_eq_of_valueAt {path : Text}
    (h : ctx.valueAt (rootKey path) = ctx'.valueAt (rootKey path)) :
    ctx.resolve path = ctx'.resolve path := by
  by_cases hsign : path.head? = some '@'
  · have hroot : rootKey path = path := if_pos (by simpa using hsign)
    rw [hroot] at h
    rw [resolve_of_sign ctx hsign, resolve_of_sign ctx' hsign]
    exact h
  · by_cases hfeatures : ∃ key, path = featuresWord ++ '.' :: key
    · obtain ⟨key, rfl⟩ := hfeatures
      have hroot : rootKey (featuresWord ++ '.' :: key) = featuresWord := by
        simp [rootKey, featuresWord]
      rw [hroot] at h
      rw [resolve_features, resolve_features, inner_eq, inner_eq, h]
    · rw [not_exists] at hfeatures
      obtain ⟨rest, hnames⟩ := exists_splitOn_eq_rootKey hsign
      rw [resolve_of_names ctx hsign hfeatures, resolve_of_names ctx' hsign hfeatures, hnames]
      exact walk_eq_of_valueAt h rest

end Context

namespace Template

open Context (AgreeOn rootKey)

/-! ### Keys of templates -/

/-- The paths that nodes look up, at any depth. -/
def pathsAll (nodes : List Node) : List Text := (nodesAll nodes).filterMap Node.path?

/-- A path that begins at a key is looked up in nodes, or in the tree of a partial in reach. -/
def Mentions (sources : Sources) (nodes : List Node) (key : Text) : Prop :=
  ∃ tree, InReach sources nodes tree ∧ ∃ path ∈ pathsAll tree, rootKey path = key

variable {sources : Sources}

/-- What the tree of an included partial mentions is mentioned. -/
theorem Mentions.of_partial {nodes : List Node} {name source key : Text}
    (hname : .partialRef name ∈ nodesAll nodes) (hsource : sources name = .ok (some source))
    (h : Mentions sources (parse source).nodes key) : Mentions sources nodes key := by
  obtain ⟨tree, hreach, hpath⟩ := h
  exact ⟨tree, .step ((mem_partialNamesAll_iff nodes).mpr hname) hsource hreach, hpath⟩

/-- The paths of nodes have the same values in contexts that agree on the keys they mention. -/
theorem resolve_eq_of_mem {nodes : List Node} {node : Node} (hnode : node ∈ nodesAll nodes)
    {path : Text} (hpath : node.path? = some path) {ctx ctx' : Context}
    (h : AgreeOn (Mentions sources nodes) ctx ctx') : ctx.resolve path = ctx'.resolve path := by
  refine Context.resolve_eq_of_valueAt (h _ ⟨nodes, .refl nodes, path, ?_, rfl⟩)
  exact List.mem_filterMap.mpr ⟨node, hnode, hpath⟩

/-- Having the same result is compatible with rendering. -/
theorem compatible_eq : Compatible fun a b : Action Unit Rendered => result a = result b := by
  refine compatibleOn_result Eq (fun _ _ => rfl) rfl ?_
  rintro x y _ _ rfl rfl
  rfl

/-- Nodes are rendered to the same result in contexts that agree on the keys they mention, if their
partials are. -/
theorem result_renderNodes_eq_of_agreeOn (nodes : List Node)
    (embed : Text → Context → Action Unit Rendered)
    (hembed : ∀ name, .partialRef name ∈ nodesAll nodes → ∀ ctx ctx',
      AgreeOn (Mentions sources nodes) ctx ctx' → result (embed name ctx) = result (embed name ctx'))
    {ctx ctx' : Context} (h : AgreeOn (Mentions sources nodes) ctx ctx') :
    result (renderNodes embed nodes ctx) = result (renderNodes embed nodes ctx') :=
  CompatibleOn.renderNodes compatible_eq (Context.keptInBodies_agreeOn _) nodes
    { text := fun _ _ => trivial
      escaped := fun _ => trivial
      raw := fun _ _ _ => trivial
      value := fun _ hnode _ hpath _ _ hagree => resolve_eq_of_mem hnode hpath hagree
      embed := hembed } h

/-- Trees are rendered to the same result in contexts that agree on the keys they mention. -/
theorem result_renderTree_eq_of_agreeOn (depth : Nat) (stack : List Text) (nodes : List Node)
    {ctx ctx' : Context} (h : AgreeOn (Mentions sources nodes) ctx ctx') :
    result (renderTree (loadFrom sources) depth stack nodes ctx) =
      result (renderTree (loadFrom sources) depth stack nodes ctx') := by
  induction depth generalizing stack nodes ctx ctx' with
  | zero =>
    let embed (name : Text) (_ : Context) : Action Unit Rendered := pure (.partialDepth stack name)
    exact result_renderNodes_eq_of_agreeOn nodes embed (fun _ _ _ _ _ => rfl) h
  | succ depth ih =>
    obtain ⟨embed, hembed, hrender⟩ := exists_renderTree_succ sources depth stack
    rw [hrender]
    refine result_renderNodes_eq_of_agreeOn nodes embed (fun name hname ctx ctx' hagree => ?_) h
    rw [hembed, hembed, embedFrom, embedFrom]
    cases hsource : sources name with
    | error fault => rfl
    | ok found =>
      cases found with
      | none => rfl
      | some source =>
        have hinner := ih (stack ++ [name]) (parse source).nodes
          (hagree.mono fun _ hkey => hkey.of_partial hname hsource)
        change (result _ >>= _) = (result _ >>= _)
        rw [hinner]

/-- Templates have the same outcome in contexts that agree on the keys they mention. -/
theorem outcome_eq_of_agreeOn (depth : Nat) (template : Text) {ctx ctx' : Context}
    (h : AgreeOn (Mentions sources (parse template).nodes) ctx ctx') :
    outcome sources depth template ctx = outcome sources depth template ctx' := by
  rw [outcome_eq, outcome_eq, result_renderTree_eq_of_agreeOn depth [] _ h]

end Template

open Template (Mentions InReach parse)

/-- **What is not mentioned does not matter.** Two renderings of a template, each on an engine that
was used in any way since it was built, have the same text and the same diagnostics, or the same
fault, if their contexts have the same values at the keys that the template and the partials in its
reach mention. A context is made of the base context, what was written into it since, and the
entries for the rendering. -/
theorem Engine.render_eq_of_agreeOn {settings : Settings} {base : Context} {tree : FileTree}
    {store? : Option Partials} {engine : Engine}
    (hbuild : build settings base tree store? = .ok engine) {template : Text}
    {calls calls' : List Call} {ctx ctx' : Context}
    (hagree : Context.AgreeOn (Mentions (engine.partials.source tree) (parse template).nodes)
      (Mapping.merge (Call.baseAfter calls base) ctx)
      (Mapping.merge (Call.baseAfter calls' base) ctx')) (messages messages' : List Message) :
    (Desk.render template ctx (Call.runAll calls ⟨engine, tree, messages⟩)).1 =
      (Desk.render template ctx' (Call.runAll calls' ⟨engine, tree, messages'⟩)).1 := by
  rw [render_runAll hbuild, render_runAll hbuild]
  exact Template.outcome_eq_of_agreeOn settings.maxPartialDepth template hagree

/-- A loop includes a partial for each item. It does not matter whether the name in the partial is
null or is not there, nor what stands at a name that neither of them mentions. -/
theorem Engine.render_eq_of_agreeOn_in_loop :
    let settings : Settings := {}
    let source : Text := "\x7b\x7by\x7d\x7d\x7b\x7b@index\x7d\x7d".toList
    let store : Partials := (Partials.inMemory.register ['p'] source).2
    let tree : FileTree := ⟨[], []⟩
    let template : Text := "\x7b\x7b#each xs\x7d\x7d\x7b\x7b> p\x7d\x7d\x7b\x7b/each\x7d\x7d".toList
    let items : Text × Value := (['x', 's'], .list [.int 7, .int 8])
    let ctx : Context := [items, (['z'], .bool true)]
    let ctx' : Context := [(['y'], .null), items]
    ∃ engine, build settings [] tree (some store) = .ok engine ∧
      Context.AgreeOn (Mentions (engine.partials.source tree) (parse template).nodes)
        (Mapping.merge [] ctx) (Mapping.merge [] ctx') ∧
      (Desk.render template ctx ⟨engine, tree, []⟩).1 =
        (Desk.render template ctx' ⟨engine, tree, []⟩).1 := by
  intro settings source store tree template items ctx ctx'
  have hbuild : build settings [] tree (some store) = .ok ⟨settings, [], store, .empty 256⟩ := rfl
  have hpaths {nodes : List Template.Node}
      (hreach : InReach (store.source tree) (parse template).nodes nodes) :
      ∀ path ∈ Template.pathsAll nodes, path ∈ [['x', 's'], ['y'], "@index".toList] := by
    have houter : Template.pathsAll (parse template).nodes = [['x', 's']] := by decide +kernel
    have hinner : Template.pathsAll (parse source).nodes = [['y'], "@index".toList] := by
      decide +kernel
    have hpartials : Template.partialNamesAll (parse template).nodes = [['p']] := by decide +kernel
    have hnone : Template.partialNamesAll (parse source).nodes = [] := by decide +kernel
    have hsource : store.source tree ['p'] = .ok (some source) := rfl
    rcases hreach.eq_or_of_partialNamesAll_eq_singleton hpartials hsource with rfl | hreach
    · rw [houter]
      simp
    · rw [hreach.eq_of_partialNamesAll_eq_nil hnone, hinner]
      simp
  have hagree : Context.AgreeOn (Mentions (store.source tree) (parse template).nodes)
      (Mapping.merge (Call.baseAfter [] []) ctx) (Mapping.merge (Call.baseAfter [] []) ctx') := by
    rintro key ⟨nodes, hreach, path, hpath, rfl⟩
    have hmem := hpaths hreach path hpath
    simp only [List.mem_cons, List.not_mem_nil, or_false] at hmem
    rcases hmem with rfl | rfl | rfl <;> rfl
  exact ⟨_, hbuild, hagree, render_eq_of_agreeOn hbuild hagree [] []⟩

end Stencil
