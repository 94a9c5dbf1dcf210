import Stencil.Proofs.Json.Plain
import Stencil.Proofs.Scaffold.Plan
import Mathlib.Data.List.Flatten

/-!
# The text of a package description

No name stands twice in a package description, at no level: what features add is disjoint from what
every project has and from what other features add. So the description can be written, and the
text that is planned for it is read back as the description.
-/

namespace Stencil.PackageJson

/-- Texts by different names. -/
theorem isPlain_textMapping {entries : Packages} (h : (entries.map (·.1)).Nodup) :
    Json.IsPlain (textMapping entries) := by
  refine .mapping ?_ ?_
  · simpa [Mapping.keys, Function.comp_def] using h
  · intro e he
    obtain ⟨_, -, rfl⟩ := List.mem_map.mp he
    exact .text _

/-- Packages with different names. -/
theorem isPlain_sorted {entries : Packages} (h : (entries.map (·.1)).Nodup) :
    Json.IsPlain (sorted entries) :=
  isPlain_textMapping
    ((((List.mergeSort_perm entries _).map (·.1)).nodup_iff).mpr h)

/-- What the selected features add has different names if this is so for all features. -/
theorem nodup_selected {base : Packages} {side : Bool × Packages × Packages → Packages}
    {all : List (Bool × Packages × Packages)}
    (h : ((base ++ all.flatMap side).map (·.1)).Nodup) :
    ((base ++ (all.filter (·.1)).flatMap side).map (·.1)).Nodup := by
  have hselected : ((all.filter (·.1)).flatMap side).Sublist (all.flatMap side) :=
    List.Sublist.flatMap List.filter_sublist side
  exact ((hselected.append_left base).map (·.1)).nodup h

/-- No package that a project depends on is named twice. -/
theorem isPlain_dependencies (f : Features) :
    Json.IsPlain (sorted (baseDependencies ++
      ((additions f).filter (·.1)).flatMap (·.2.1))) := by
  have hall : (additions f).flatMap (·.2.1) = (additions {}).flatMap (·.2.1) := rfl
  refine isPlain_sorted (nodup_selected ?_)
  rw [hall]
  decide +kernel

/-- No package that the work on a project depends on is named twice. -/
theorem isPlain_devDependencies (f : Features) :
    Json.IsPlain (sorted (baseDevDependencies ++
      ((additions f).filter (·.1)).flatMap (·.2.2))) := by
  have hall : (additions f).flatMap (·.2.2) = (additions {}).flatMap (·.2.2) := rfl
  refine isPlain_sorted (nodup_selected ?_)
  rw [hall]
  decide +kernel

/-- No script is named twice. -/
theorem isPlain_scripts (f : Features) : Json.IsPlain (textMapping (scripts f)) := by
  refine isPlain_textMapping ?_
  unfold scripts
  cases f.typescript <;> cases f.eslint <;> cases f.prettier <;> cases f.husky <;>
    cases f.testing <;> decide +kernel

/-- No entry of a package description stands there twice. -/
theorem nodup_keys_build (f : Features) (m : Metadata) : (Mapping.keys (build f m)).Nodup := by
  have hall : (["name", "private", "version", "type", "scripts", "dependencies", "devDependencies",
      "description", "author", "license"].map String.toList).Nodup := by decide +kernel
  have hoptional (name : String) (s : Text) :
      ((if s.isEmpty then [] else [(name.toList, Value.text s)]).map (·.1)).Sublist
        [name.toList] := by
    split
    · exact List.nil_sublist _
    · exact List.Sublist.refl _
  refine List.Sublist.nodup ?_ hall
  simp only [build, Mapping.keys, List.map_append]
  exact (((List.Sublist.refl _).append (hoptional "description" m.description)).append
    (hoptional "author" m.author)).append (hoptional "license" m.license)

/-- A package description is a value that JSON keeps. -/
theorem isPlain_build (f : Features) (m : Metadata) : Json.IsPlain (.mapping (build f m)) := by
  have hoptional (name : String) (s : Text) :
      ∀ e ∈ if s.isEmpty then [] else [(name.toList, Value.text s)], Json.IsPlain e.2 := by
    split
    · exact List.forall_mem_nil _
    · exact List.forall_mem_singleton.mpr (.text s)
  refine .mapping (nodup_keys_build f m) ?_
  simp only [build, List.forall_mem_append, List.forall_mem_cons]
  exact ⟨⟨⟨⟨.text _, .bool _, .text _, .text _, isPlain_scripts f, isPlain_dependencies f,
    isPlain_devDependencies f, List.forall_mem_nil _⟩, hoptional _ _⟩, hoptional _ _⟩,
    hoptional _ _⟩

end Stencil.PackageJson

namespace Stencil

/-- There is a text for every package description, and it is read back as the description. -/
theorem Project.exists_packageText (f : Features) (m : Metadata) :
    ∃ text, packageText f m = .ok text ∧
      Json.read text = .ok (.mapping (PackageJson.build f m)) := by
  have hplain := PackageJson.isPlain_build f m
  obtain ⟨text, hwrite⟩ := hplain.exists_write? .page 0
  have hread := hplain.read_append hwrite ['\n'] (List.all_eq_true.mp (by decide))
  refine ⟨text ++ ['\n'], ?_, hread⟩
  rw [packageText, hwrite]

/-- No test file takes the place of the package description. -/
theorem Studio.packageJson_not_mem_planTests {studio after : Studio} {tests : Mapping Text}
    (h : planTests studio = (.ok tests, after)) : "package.json".toList ∉ Mapping.keys tests := by
  intro hmem
  rcases place_of_mem_planTests h _ hmem with hname | ⟨file, -, hname⟩
  · exact absurd hname (by decide)
  · have hslash : '/' ∈ file.place := by simp [TestFile.place]
    rw [← hname] at hslash
    exact absurd hslash (by decide)

/-- The package description among the files of a plan is the one of the project. -/
theorem Studio.exists_get?_plan {studio after : Studio} {files : Mapping Text}
    (h : plan studio = (.ok files, after)) :
    ∃ text, files.get? "package.json".toList = some text ∧
      Project.packageText studio.project.features studio.project.metadata = .ok text := by
  obtain ⟨current, _, hget, hrest⟩ := Action.bind_eq_ok h
  obtain rfl := Except.ok.inj (Prod.mk.inj hget).1
  obtain ⟨sources, _, -, hrest⟩ := Action.bind_eq_ok hrest
  obtain ⟨text, _, hpackage, hrest⟩ := Action.bind_eq_ok hrest
  obtain ⟨tests, _, htests, hfiles⟩ := Action.bind_eq_ok hrest
  obtain rfl := Except.ok.inj (Prod.mk.inj hfiles).1
  refine ⟨text, ?_, ?_⟩
  · rw [Mapping.get?_merge_of_not_mem (packageJson_not_mem_planTests htests),
      Mapping.get?_set_self]
  · exact (Prod.mk.inj hpackage).1

/-- A project is planned if its source files and its test files can be rendered. -/
theorem Studio.exists_plan {studio : Studio}
    (hok : (onSources (SourceFile.generate studio.project.features studio.project.metadata
      studio.project.settings.packageManager.name) studio).1.isOk)
    (htests : (planTests (onSources (SourceFile.generate studio.project.features
      studio.project.metadata studio.project.settings.packageManager.name) studio).2).1.isOk) :
    ∃ files after, plan studio = (.ok files, after) := by
  obtain ⟨sources, first, hsources⟩ := Action.exists_of_isOk hok
  rw [hsources] at htests
  obtain ⟨tests, last, hplanTests⟩ := Action.exists_of_isOk htests
  obtain ⟨text, htext, -⟩ := Project.exists_packageText studio.project.features
    studio.project.metadata
  have hget (s : Studio) : (get : Action Studio Studio) s = (.ok s, s) := rfl
  have hpackage : (liftM (Project.packageText studio.project.features studio.project.metadata) :
      Action Studio Text) first = (.ok text, first) := by
    rw [htext]
    rfl
  rw [plan, Action.bind_run, hget]
  dsimp only
  rw [Action.bind_run, hsources]
  dsimp only
  rw [Action.bind_run, hpackage]
  dsimp only
  rw [Action.bind_run, hplanTests]
  exact ⟨_, _, rfl⟩

end Stencil
