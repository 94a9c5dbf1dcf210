import Stencil.Proofs.Engine.Sources
import Stencil.Proofs.FileTree.Places
import Stencil.Proofs.Mapping
import Stencil.Scaffold.Project

/-!
# Plans

Planning a project reads files and changes none, whether it succeeds or fails. The files of a plan
have different names, which come from the tables of source and test files. So no file of a plan
stands where another one needs a directory, and none lies outside of the project.
-/

namespace Stencil

open Stencil.Action

/-! ### Planning changes no files -/

namespace Desk

/-- Telling the user something changes no files. -/
theorem keeps_tree_tell (message : Message) : Keeps Desk.tree (tell message) := fun _ => rfl

/-- An engine changes no files when it is used. -/
theorem keptInUse_tree : KeptInUse Desk.tree where
  messages _ _ := rfl
  compile _ _ := rfl
  loadSource name desk := by
    rw [loadSource_run]
    split <;> rfl

end Desk

/-- Making a source file changes no other files. -/
theorem SourceFile.keeps_tree_content? (file : SourceFile) (ctx : Context) :
    Keeps Desk.tree (file.content? ctx) := by
  refine (Desk.KeptInUse.hasTemplate _).bind fun present => ?_
  split
  · split
    · refine keeps_get_bind fun desk => ?_
      exact ((keeps_lift _).bind fun text => keeps_pure _) desk
    · exact (Desk.keptInUse_tree.processFile _ ctx).bind fun text => keeps_pure _
  · exact (Desk.keeps_tree_tell _).bind fun _ => keeps_pure _

/-- Making source files changes no other files. -/
theorem SourceFile.keeps_tree_contents (ctx : Context) (files : List SourceFile) :
    Keeps Desk.tree (contents ctx files) := by
  induction files with
  | nil => exact keeps_pure _
  | cons file rest ih =>
    exact (file.keeps_tree_content? ctx).bind fun first => ih.bind fun more => keeps_pure _

/-- Rendering a test file changes no other files. -/
theorem TestFile.keeps_tree_render (f : Features) (template : Text) :
    Keeps Desk.tree (render f template) := by
  refine (Desk.KeptInUse.hasTemplate _).bind fun present => ?_
  split
  · refine keeps_get_bind fun desk => ?_
    refine ((keeps_lift _).bind fun source => ?_) desk
    split
    · exact keeps_pure _
    · exact (Desk.keptInUse_tree.process source _).bind fun text => keeps_pure _
  · exact (Desk.keeps_tree_tell _).bind fun _ => keeps_pure _

/-- Making test files changes no other files. -/
theorem TestFile.keeps_tree_outputs (f : Features) (files : List TestFile) :
    Keeps Desk.tree (outputs f files) := by
  induction files with
  | nil => exact keeps_pure _
  | cons file rest ih =>
    refine (keeps_tree_render f file.template).bind fun content => ih.bind fun more => ?_
    split <;> exact keeps_pure _

namespace Studio

/-- What an engine of source files leaves of the files, the project leaves. -/
theorem keeps_tree_onSources {α : Type} {action : Action Desk α} (h : Keeps Desk.tree action) :
    Keeps Studio.tree (onSources action) :=
  h.zoom (fun _ => rfl) fun _ _ => rfl

/-- What an engine of test files leaves of the files, the project leaves. -/
theorem keeps_tree_onTests {α : Type} (engine : Engine) {action : Action Desk α}
    (h : Keeps Desk.tree action) : Keeps Studio.tree (onTests engine action) :=
  h.zoom (fun _ => rfl) fun _ _ => rfl

/-- Planning test files changes no files. -/
theorem keeps_tree_planTests : Keeps Studio.tree planTests := by
  refine keeps_get_bind fun studio => ?_
  cases htests : studio.project.tests with
  | none => rfl
  | some engine =>
    exact keeps_tree_onTests engine ((TestFile.keeps_tree_outputs _ _).bind fun files =>
      (TestFile.keeps_tree_render _ _).bind fun settings => keeps_pure _) studio

/-- **Planning changes no files,** also if it fails. -/
theorem keeps_tree_plan : Keeps Studio.tree plan := by
  refine keeps_get_bind fun studio => ?_
  exact ((keeps_tree_onSources (SourceFile.keeps_tree_contents _ _)).bind fun sources =>
    (keeps_lift _).bind fun package => keeps_tree_planTests.bind fun tests => keeps_pure _) studio

end Studio

/-! ### The names of planned files -/

/-- Source files that are made have the places of their table, in its order. -/
theorem SourceFile.keys_contents {ctx : Context} {files : List SourceFile} {desk after : Desk}
    {found : Mapping Text} (h : contents ctx files desk = (.ok found, after)) :
    (Mapping.keys found).Sublist (files.map (·.destination)) := by
  induction files generalizing desk found after with
  | nil =>
    obtain rfl := Except.ok.inj (Prod.mk.inj h).1
    exact List.Sublist.slnil
  | cons file files ih =>
    obtain ⟨content, first, -, h⟩ := bind_eq_ok h
    obtain ⟨more, last, hmore, h⟩ := bind_eq_ok h
    obtain rfl := Except.ok.inj (Prod.mk.inj h).1
    cases content with
    | none => exact (ih hmore).cons _
    | some text => exact (ih hmore).cons_cons _

/-- Where a test file goes, seen from the root of the project. -/
def TestFile.place (file : TestFile) : Text := file.directory ++ ['/'] ++ file.filename

/-- Test files that are made have the places of their table. -/
theorem TestFile.exists_of_mem_outputs {f : Features} {files : List TestFile} {desk after : Desk}
    {found : List TestOutput} (h : outputs f files desk = (.ok found, after)) :
    ∀ output ∈ found, ∃ file ∈ files, output.destination = file.place := by
  induction files generalizing desk found after with
  | nil =>
    obtain rfl := Except.ok.inj (Prod.mk.inj h).1
    exact List.forall_mem_nil _
  | cons file files ih =>
    obtain ⟨content, first, -, h⟩ := bind_eq_ok h
    obtain ⟨more, last, hmore, h⟩ := bind_eq_ok h
    have hothers : ∀ output ∈ more, ∃ other ∈ file :: files, output.destination = other.place := by
      intro output houtput
      obtain ⟨other, hother, hplace⟩ := ih hmore output houtput
      exact ⟨other, List.mem_cons_of_mem _ hother, hplace⟩
    split at h <;> obtain rfl := Except.ok.inj (Prod.mk.inj h).1
    · exact hothers
    · exact List.forall_mem_cons.mpr ⟨⟨file, List.mem_cons_self, rfl⟩, hothers⟩

namespace Studio

/-- Planned test files are the settings of tests and files of the table, at their places. -/
theorem place_of_mem_planTests {studio after : Studio} {tests : Mapping Text}
    (h : planTests studio = (.ok tests, after)) : ∀ name ∈ Mapping.keys tests,
      name = "vitest.config.ts".toList ∨ ∃ file ∈ TestFile.all, name = file.place := by
  obtain ⟨current, between, hget, hcases⟩ := bind_eq_ok h
  cases htests : current.project.tests with
  | none =>
    simp only [htests] at hcases
    obtain rfl := Except.ok.inj (Prod.mk.inj hcases).1
    exact List.forall_mem_nil _
  | some engine =>
    simp only [htests] at hcases
    obtain ⟨desk, hrun, -⟩ := zoom_eq_ok hcases
    obtain ⟨outputs, first, houtputs, hrest⟩ := bind_eq_ok hrun
    obtain ⟨settings, last, -, hfiles⟩ := bind_eq_ok hrest
    obtain rfl := Except.ok.inj (Prod.mk.inj hfiles).1
    intro name hname
    simp only [Mapping.keys, List.map_append, List.map_map, List.mem_append] at hname
    rcases hname with hname | hname
    · obtain ⟨output, houtput, rfl⟩ := List.mem_map.mp hname
      obtain ⟨file, hfile, hplace⟩ := TestFile.exists_of_mem_outputs houtputs output houtput
      exact Or.inr ⟨file, (List.mem_filter.mp hfile).1, hplace⟩
    · split at hname
      · exact absurd hname List.not_mem_nil
      · exact Or.inl (List.mem_singleton.mp hname)

/-- The places of all files that a project can have, seen from its root. -/
def places : List Text :=
  SourceFile.all.map (·.destination) ++ "package.json".toList :: "vitest.config.ts".toList ::
    TestFile.all.map TestFile.place

/-- The files of a plan have different names, and these are among the places of files. -/
theorem nodup_keys_plan {studio after : Studio} {files : Mapping Text}
    (h : plan studio = (.ok files, after)) :
    (Mapping.keys files).Nodup ∧ ∀ name ∈ Mapping.keys files, name ∈ places := by
  obtain ⟨current, _, hget, hrest⟩ := bind_eq_ok h
  obtain ⟨sources, _, hsources, hrest⟩ := bind_eq_ok hrest
  obtain ⟨text, _, hpackage, hrest⟩ := bind_eq_ok hrest
  obtain ⟨tests, _, htests, hfiles⟩ := bind_eq_ok hrest
  obtain rfl := Except.ok.inj (Prod.mk.inj hfiles).1
  obtain ⟨desk, hcontents, -⟩ := zoom_eq_ok hsources
  have hkeys : (Mapping.keys sources).Sublist (SourceFile.all.map (·.destination)) :=
    (SourceFile.keys_contents hcontents).trans (List.filter_sublist.map _)
  have hall : (SourceFile.all.map (·.destination)).Nodup := by decide +kernel
  constructor
  · exact Mapping.nodup_keys_merge (Mapping.nodup_keys_set (hkeys.nodup hall))
  · intro name hname
    simp only [places, List.mem_append, List.mem_cons]
    rcases Mapping.mem_keys_merge.mp hname with hname | hname
    · rcases Mapping.mem_keys_set.mp hname with rfl | hname
      · exact Or.inr (Or.inl rfl)
      · exact Or.inl (hkeys.subset hname)
    · rcases place_of_mem_planTests htests name hname with rfl | ⟨file, hfile, rfl⟩
      · exact Or.inr (Or.inr (Or.inl rfl))
      · exact Or.inr (Or.inr (Or.inr (List.mem_map_of_mem hfile)))

/-- A place leads down from the root of the project. -/
theorem leadDown_of_mem_places : ∀ name ∈ places,
    (Path.ofText name).isAbsolute = false ∧ Path.partsOf name ≠ [] ∧
      FileTree.LeadDown (Path.partsOf name) := by
  decide +kernel

/-- No place is above another one, or the same by another name. -/
theorem eq_of_prefix_of_mem_places : ∀ name ∈ places, ∀ other ∈ places,
    Path.partsOf name <+: Path.partsOf other → name = other := by
  decide +kernel

end Studio

end Stencil
