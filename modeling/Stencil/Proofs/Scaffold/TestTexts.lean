import Stencil.Proofs.Engine.Calls
import Stencil.Proofs.Scaffold.PackageText
import Stencil.Proofs.Text.Trimming

/-!
# The texts of test files

What is rendered from a test template loses the blanks at its ends and gets a line break. The files
of the table are left out where nothing is left of them. The settings of tests are left out only if
their template is missing or blank, so they can be a line break and nothing else.
-/

namespace Stencil

namespace Text

/-- A text that begins with a character that is not blank, and ends with such a character and one
line break. -/
def IsNeat (s : Text) : Prop :=
  (∃ c rest, s = c :: rest ∧ isBlank c = false) ∧
    ∃ rest c, s = rest ++ [c, '\n'] ∧ isBlank c = false

/-- Of blanks nothing is left. -/
theorem strip_eq_nil {s : Text} (h : isAllBlank s) : strip s = [] := by
  have hdrop : s.dropWhile isBlank = [] := List.dropWhile_eq_nil_iff.mpr (List.all_eq_true.mp h)
  rw [strip, trim, hdrop]
  rfl

/-- Of another text something is left, with no blanks at its ends. -/
theorem strip_cases {s : Text} (h : isAllBlank s = false) :
    (∃ c rest, strip s = c :: rest ∧ isBlank c = false) ∧
      ∃ rest c, strip s = rest ++ [c] ∧ isBlank c = false := by
  obtain ⟨c, hc, hblank⟩ : ∃ c ∈ s, isBlank c = false := by simpa [isAllBlank] using h
  have hsome : strip s ≠ [] := List.ne_nil_of_mem (mem_trim hc hblank)
  constructor
  · obtain ⟨first, rest, hcons⟩ := List.exists_cons_of_ne_nil hsome
    have hhead : (strip s).head? = some first := by rw [hcons, List.head?_cons]
    exact ⟨first, rest, hcons, not_head_trim hhead⟩
  · exact ⟨_, _, (List.dropLast_append_getLast hsome).symm,
      not_getLast_trim (List.getLast?_eq_some_getLast hsome)⟩

/-- A text that is not blank is neat without the blanks at its ends, and with a line break. -/
theorem isNeat_strip {s : Text} (h : isAllBlank s = false) : IsNeat (strip s ++ ['\n']) := by
  obtain ⟨⟨c, rest, hfirst, hc⟩, before, d, hlast, hd⟩ := strip_cases h
  exact ⟨⟨c, rest ++ ['\n'], by rw [hfirst]; rfl, hc⟩, before, d, by rw [hlast]; simp, hd⟩

/-- A neat text is not blank. -/
theorem IsNeat.not_isAllBlank {s : Text} (h : IsNeat s) : isAllBlank s = false := by
  obtain ⟨⟨c, rest, rfl, hc⟩, -⟩ := h
  simp [isAllBlank, hc]

end Text

variable {start now : Desk}

/-- Looking for a template is looking for its file. -/
theorem Desk.hasTemplate_run (path : Path) (desk : Desk) :
    hasTemplate path desk = (desk.tree.hasFile (desk.engine.templatePath path), desk) :=
  Action.lift_run _ desk

namespace TestFile

variable {f : Features} {template : Text}

/-- The path of a test template. -/
def templatePath (desk : Desk) (template : Text) : Path :=
  desk.engine.templatePath (.ofText template)

/-- A test template is rendered if it is there and is not blank. -/
theorem render_run (f : Features) (template : Text) (desk : Desk) :
    render f template desk =
      match desk.tree.hasFile (templatePath desk template) with
      | .error fault => (.error fault, desk)
      | .ok false => (Desk.tell (.warning ("Test template ".toList ++ template
          ++ " not found".toList)) >>= fun _ => pure []) desk
      | .ok true =>
        match desk.tree.readText (templatePath desk template) with
        | .error fault => (.error fault, desk)
        | .ok source =>
          if Text.isAllBlank source then (.ok [], desk)
          else (Desk.process source (context f) >>= fun text =>
            pure (Text.strip text ++ ['\n'])) desk := by
  rw [render, Action.bind_run, Desk.hasTemplate_run]
  simp only [templatePath]
  cases desk.tree.hasFile (desk.engine.templatePath (.ofText template)) with
  | error => rfl
  | ok present =>
    cases present with
    | false => rfl
    | true =>
      dsimp only
      rw [if_pos rfl]
      change ((liftM (desk.tree.readText _) : Action Desk Text) >>= _) desk = _
      rw [Action.lift_bind_run]
      cases desk.tree.readText (desk.engine.templatePath (.ofText template)) with
      | error => rfl
      | ok source =>
        dsimp only
        split <;> rfl

/-- What is rendered from a test template does not depend on what the engine was used for before,
and the engine is left steady. -/
theorem steady_render (hstart : start.Steady start) (h : start.Steady now) (f : Features)
    (template : Text) :
    (render f template now).1 = (render f template start).1 ∧
      start.Steady (render f template now).2 := by
  have hpath : templatePath now template = templatePath start template := by
    rw [templatePath, templatePath, Engine.templatePath, Engine.templatePath, h.settings]
  rw [render_run, render_run, h.tree, hpath]
  cases start.tree.hasFile (templatePath start template) with
  | error => exact ⟨rfl, h⟩
  | ok present =>
    cases present with
    | false => exact ⟨rfl, h.settings, h.base, h.tree, h.source, h.sound⟩
    | true =>
      cases start.tree.readText (templatePath start template) with
      | error => exact ⟨rfl, h⟩
      | ok source =>
        dsimp only
        split
        · exact ⟨rfl, h⟩
        · obtain ⟨after, hrun, hafter⟩ := Desk.steady_process h source (context f)
          obtain ⟨other, hother, -⟩ := Desk.steady_process hstart source (context f)
          rw [Action.bind_run, Action.bind_run, hrun, hother]
          cases Template.outcome start.source start.engine.settings.maxPartialDepth source
            (Mapping.merge start.engine.base (context f)) <;> exact ⟨rfl, hafter⟩

/-- A test template that is not blank, but gives blanks only. -/
def RendersBlank (f : Features) (template : Text) (desk : Desk) : Prop :=
  ∃ source text, desk.tree.hasFile (templatePath desk template) = .ok true ∧
    desk.tree.readText (templatePath desk template) = .ok source ∧
    Text.isAllBlank source = false ∧
    (Desk.process source (context f) desk).1 = .ok text ∧ Text.isAllBlank text

/-- What is rendered from a test template is empty where the template is missing or blank, and
otherwise what the engine gives, trimmed and with a line break. -/
theorem render_eq_ok {desk : Desk} {content : Text}
    (h : (render f template desk).1 = .ok content) :
    (content = [] ∧ ¬RendersBlank f template desk) ∨
      ∃ source text, desk.tree.hasFile (templatePath desk template) = .ok true ∧
        desk.tree.readText (templatePath desk template) = .ok source ∧
        Text.isAllBlank source = false ∧
        (Desk.process source (context f) desk).1 = .ok text ∧
        content = Text.strip text ++ ['\n'] := by
  rw [render_run] at h
  split at h
  · contradiction
  · next hmissing =>
    refine Or.inl ⟨(Except.ok.inj h).symm, ?_⟩
    rintro ⟨_, _, hpresent, -⟩
    rw [hmissing] at hpresent
    cases hpresent
  · next hpresent =>
    split at h
    · contradiction
    · next source hread =>
      split at h
      · next hblank =>
        refine Or.inl ⟨(Except.ok.inj h).symm, ?_⟩
        rintro ⟨other, _, -, hother, hnot, -⟩
        obtain rfl := Except.ok.inj (hread.symm.trans hother)
        rw [hblank] at hnot
        contradiction
      · next hnot =>
        rw [Action.bind_run] at h
        split at h
        · next text after hrun =>
          exact Or.inr ⟨source, text, hpresent, hread, by simpa using hnot, by rw [hrun],
            (Except.ok.inj h).symm⟩
        · contradiction

/-- What is rendered from a test template is empty, or neat, or a line break. The last happens
exactly if the template is not blank and gives blanks only. -/
theorem render_cases {desk : Desk} {content : Text}
    (h : (render f template desk).1 = .ok content) :
    (content = [] ∨ content.IsNeat ∨ content = ['\n']) ∧
      (content = ['\n'] ↔ RendersBlank f template desk) := by
  rcases render_eq_ok h with ⟨rfl, hnot⟩ | ⟨source, text, hpresent, hread, hnot, hrun, rfl⟩
  · exact ⟨Or.inl rfl, nofun, fun hblank => absurd hblank hnot⟩
  · have hblank : RendersBlank f template desk ↔ Text.isAllBlank text := by
      constructor
      · rintro ⟨other, text', -, hother, -, hrun', hblank⟩
        obtain rfl := Except.ok.inj (hread.symm.trans hother)
        rwa [Except.ok.inj (hrun.symm.trans hrun')]
      · exact fun hblank => ⟨source, text, hpresent, hread, hnot, hrun, hblank⟩
    rw [hblank]
    cases htext : Text.isAllBlank text with
    | true =>
      rw [Text.strip_eq_nil htext]
      exact ⟨Or.inr (Or.inr rfl), fun _ => rfl, fun _ => rfl⟩
    | false =>
      have hneat := Text.isNeat_strip htext
      refine ⟨Or.inr (Or.inl hneat), fun heq => ?_, nofun⟩
      have hink := hneat.not_isAllBlank
      rw [heq] at hink
      exact absurd hink (by decide)

/-- Test files that are made are neat, and the engine is left steady. -/
theorem neat_of_outputs (hstart : start.Steady start) {files : List TestFile} {after : Desk}
    {found : List TestOutput} (h : start.Steady now)
    (hrun : outputs f files now = (.ok found, after)) :
    start.Steady after ∧ ∀ output ∈ found, output.content.IsNeat := by
  induction files generalizing now found after with
  | nil =>
    obtain ⟨hfound, rfl⟩ := Prod.mk.inj hrun
    obtain rfl := Except.ok.inj hfound
    exact ⟨h, List.forall_mem_nil _⟩
  | cons file files ih =>
    obtain ⟨content, first, hcontent, hrun⟩ := Action.bind_eq_ok hrun
    obtain ⟨more, last, hmore, hrun⟩ := Action.bind_eq_ok hrun
    have hfirst := (steady_render hstart h f file.template).2
    rw [hcontent] at hfirst
    obtain ⟨hlast, hneat⟩ := ih hfirst hmore
    have hcases := (render_cases (congrArg Prod.fst hcontent)).1
    split at hrun
    · obtain ⟨hfound, rfl⟩ := Prod.mk.inj hrun
      obtain rfl := Except.ok.inj hfound
      exact ⟨hlast, hneat⟩
    · next hink =>
      obtain ⟨hfound, rfl⟩ := Prod.mk.inj hrun
      obtain rfl := Except.ok.inj hfound
      refine ⟨hlast, List.forall_mem_cons.mpr ⟨?_, hneat⟩⟩
      rcases hcases with rfl | hcontent | rfl
      · exact absurd rfl hink
      · exact hcontent
      · exact absurd (by decide) hink

/-- No file of the table stands where the settings of tests do. -/
theorem place_ne_settings (file : TestFile) : file.place ≠ "vitest.config.ts".toList := by
  intro hplace
  have hslash : '/' ∈ file.place := by simp [place]
  rw [hplace] at hslash
  exact absurd hslash (by decide)

end TestFile

namespace Studio

/-- The planned test files: those of the table are neat, and the settings are what is rendered for
them, unless this is empty. -/
theorem exists_settings_of_planTests {studio after : Studio} {engine : Engine}
    {tests : Mapping Text} (hengine : studio.project.tests = some engine)
    (hsound : engine.cache.Sound) (h : planTests studio = (.ok tests, after)) :
    ∃ settings, (TestFile.renderSettings studio.project.features ⟨engine, studio.tree, []⟩).1 =
        .ok settings ∧
      (∀ entry ∈ tests, entry.2.IsNeat ∨ entry.1 = "vitest.config.ts".toList) ∧
      ∀ content, ("vitest.config.ts".toList, content) ∈ tests ↔
        content = settings ∧ settings ≠ [] := by
  obtain ⟨current, same, hget, hcases⟩ := Action.bind_eq_ok h
  obtain ⟨hcurrent, hsame⟩ := Prod.mk.inj hget
  obtain rfl := Except.ok.inj hcurrent
  simp only [hengine, ← hsame] at hcases
  obtain ⟨desk, hrun, -⟩ := Action.zoom_eq_ok hcases
  obtain ⟨outputs, first, houtputs, hrest⟩ := Action.bind_eq_ok hrun
  obtain ⟨settings, last, hsettings, hfiles⟩ := Action.bind_eq_ok hrest
  obtain rfl := Except.ok.inj (Prod.mk.inj hfiles).1
  have hstart : Desk.Steady ⟨engine, studio.tree, []⟩ ⟨engine, studio.tree, []⟩ :=
    Desk.steady_refl hsound
  have hnow : Desk.Steady ⟨engine, studio.tree, []⟩ ⟨engine, studio.tree, studio.messages⟩ :=
    ⟨rfl, rfl, rfl, rfl, hsound⟩
  obtain ⟨hfirst, hneat⟩ := TestFile.neat_of_outputs hstart hnow houtputs
  have hplaces := TestFile.exists_of_mem_outputs houtputs
  refine ⟨settings, ?_, ?_, ?_⟩
  · have hrender := (TestFile.steady_render hstart hfirst studio.project.features
      "vitest.config.ts.hbs".toList).1
    exact hrender.symm.trans (congrArg Prod.fst hsettings)
  · intro entry hentry
    rcases List.mem_append.mp hentry with hfile | hlast
    · obtain ⟨output, houtput, rfl⟩ := List.mem_map.mp hfile
      exact Or.inl (hneat output houtput)
    · split at hlast
      · exact absurd hlast List.not_mem_nil
      · exact Or.inr (congrArg Prod.fst (List.mem_singleton.mp hlast))
  · intro content
    have hnone : ("vitest.config.ts".toList, content) ∉
        outputs.map fun file => (file.destination, file.content) := by
      intro hmem
      obtain ⟨output, houtput, heq⟩ := List.mem_map.mp hmem
      obtain ⟨file, -, hplace⟩ := hplaces output houtput
      exact file.place_ne_settings (hplace.symm.trans (Prod.mk.inj heq).1)
    rw [List.mem_append, or_iff_right hnone]
    cases settings <;> simp

/-- No source file stands at a place of the tests, nor does the package description. -/
theorem not_source_of_test : ∀ name ∈ "vitest.config.ts".toList :: TestFile.all.map TestFile.place,
    name ∉ "package.json".toList :: SourceFile.all.map (·.destination) := by
  decide +kernel

/-- A project with tests has an engine for them, which has kept no trees yet. -/
theorem exists_tests_of_create {settings : Settings} {features : Features} {tree : FileTree}
    {project : Project} (h : Project.create settings features tree = .ok project)
    (htesting : features.testing = true) :
    ∃ engine, project.tests = some engine ∧ engine.cache.Sound ∧ project.features = features := by
  rw [Project.create] at h
  cases hsources : Engine.ofSettings settings.engine [] tree with
  | error => rw [hsources] at h; contradiction
  | ok sources =>
    rw [hsources] at h
    change (if features.testing = true then _ else _) = _ at h
    rw [if_pos htesting] at h
    cases htests : Engine.ofSettings (Project.testEngineSettings settings) [] tree with
    | error => rw [htests] at h; contradiction
    | ok engine =>
      rw [htests] at h
      obtain rfl := Except.ok.inj h
      have hbuild : Engine.build (Project.testEngineSettings settings) [] tree none =
          .ok engine := htests
      obtain ⟨partials, -, -, hbuilt⟩ := Engine.build_eq_ok.mp hbuild
      exact ⟨engine, rfl, hbuilt ▸ Cache.sound_empty _, rfl⟩

/-- The planned file at a place of the tests is a planned test file. -/
theorem exists_planTests_of_plan {studio after : Studio} {files : Mapping Text}
    (h : plan studio = (.ok files, after)) :
    ∃ between tests, between.project.tests = studio.project.tests ∧
      between.project.features = studio.project.features ∧ between.tree = studio.tree ∧
      planTests between = (.ok tests, after) ∧
      ∀ name ∈ "vitest.config.ts".toList :: TestFile.all.map TestFile.place,
        (∀ content, files.get? name = some content → (name, content) ∈ tests) ∧
        ∀ content, (name, content) ∈ tests → ∃ found, files.get? name = some found := by
  obtain ⟨current, _, hget, hrest⟩ := Action.bind_eq_ok h
  obtain rfl := Except.ok.inj (Prod.mk.inj hget).1
  obtain rfl := (Prod.mk.inj hget).2
  obtain ⟨sources, first, hsources, hrest⟩ := Action.bind_eq_ok hrest
  obtain ⟨package, second, hpackage, hrest⟩ := Action.bind_eq_ok hrest
  obtain ⟨tests, last, htests, hfiles⟩ := Action.bind_eq_ok hrest
  obtain ⟨hmerge, rfl⟩ := Prod.mk.inj hfiles
  obtain rfl := Except.ok.inj hmerge
  obtain ⟨desk, hcontents, rfl⟩ := Action.zoom_eq_ok hsources
  obtain rfl := (Prod.mk.inj ((Action.lift_run _ _).symm.trans hpackage)).2
  have htree : studio.tree = desk.tree :=
    ((SourceFile.keeps_tree_contents _ _ _).symm.trans
      (congrArg Desk.tree (congrArg Prod.snd hcontents)))
  have hkeys : (Mapping.keys sources).Sublist (SourceFile.all.map (·.destination)) :=
    (SourceFile.keys_contents hcontents).trans (List.filter_sublist.map _)
  refine ⟨_, tests, ?_, ?_, ?_, htests, fun name hname => ⟨fun content hget => ?_,
    fun content hmem => ?_⟩⟩
  · rfl
  · rfl
  · exact htree.symm
  · rcases Mapping.get?_merge_cases hget with hmem | ⟨-, hbefore⟩
    · exact hmem
    · have hplace : name ∈ "package.json".toList :: SourceFile.all.map (·.destination) := by
        rcases Mapping.mem_keys_set.mp (Mapping.mem_keys_iff.mpr ⟨content, hbefore⟩) with rfl | hkey
        · exact List.mem_cons_self
        · exact List.mem_cons_of_mem _ (hkeys.subset hkey)
      exact absurd hplace (not_source_of_test name hname)
  · exact Mapping.mem_keys_iff.mp
      (Mapping.mem_keys_merge.mpr (Or.inr (List.mem_map_of_mem (f := Prod.fst) hmem)))

variable {settings : Settings} {features : Features} {tree : FileTree} {project : Project}
  {messages : List Message} {files : Mapping Text} {after : Studio}

/-- What is planned at the places of tests is neat, or the settings of tests and a line break. -/
theorem neat_or_line_of_plan (hcreate : Project.create settings features tree = .ok project)
    (htesting : features.testing = true)
    (hplan : plan ⟨project, tree, messages⟩ = (.ok files, after)) :
    ∀ name ∈ "vitest.config.ts".toList :: TestFile.all.map TestFile.place,
      ∀ content, files.get? name = some content →
        content.IsNeat ∨ name = "vitest.config.ts".toList ∧ content = ['\n'] := by
  obtain ⟨engine, hengine, hsound, rfl⟩ := exists_tests_of_create hcreate htesting
  obtain ⟨between, tests, hsame, -, -, hrun, hfiles⟩ := exists_planTests_of_plan hplan
  obtain ⟨text, hrender, hothers, hsettings⟩ :=
    exists_settings_of_planTests (hsame.trans hengine) hsound hrun
  intro name hname content hget
  have hmem := (hfiles name hname).1 content hget
  rcases hothers _ hmem with hneat | rfl
  · exact Or.inl hneat
  · obtain ⟨rfl, hink⟩ := (hsettings content).mp hmem
    rcases (TestFile.render_cases hrender).1 with hnil | hneat | hline
    · exact absurd hnil hink
    · exact Or.inl hneat
    · exact Or.inr ⟨rfl, hline⟩

/-- The settings of tests are planned as a line break exactly if their template gives blanks. -/
theorem line_of_plan_iff (hcreate : Project.create settings features tree = .ok project)
    (htesting : features.testing = true)
    (hplan : plan ⟨project, tree, messages⟩ = (.ok files, after)) :
    files.get? "vitest.config.ts".toList = some ['\n'] ↔
      ∃ engine, project.tests = some engine ∧
        TestFile.RendersBlank features "vitest.config.ts.hbs".toList ⟨engine, tree, []⟩ := by
  obtain ⟨engine, hengine, hsound, rfl⟩ := exists_tests_of_create hcreate htesting
  obtain ⟨between, tests, hsame, hkept, htree, hrun, hfiles⟩ := exists_planTests_of_plan hplan
  obtain ⟨text, hrender, -, hsettings⟩ :=
    exists_settings_of_planTests (hsame.trans hengine) hsound hrun
  rw [hkept, htree] at hrender
  have hbreak := (TestFile.render_cases hrender).2
  obtain ⟨hread, hwritten⟩ := hfiles _ List.mem_cons_self
  constructor
  · intro hget
    obtain ⟨hline, -⟩ := (hsettings _).mp (hread _ hget)
    exact ⟨engine, hengine, hbreak.mp hline.symm⟩
  · rintro ⟨other, hother, hblank⟩
    obtain rfl := Option.some.inj (hengine.symm.trans hother)
    obtain rfl := hbreak.mpr hblank
    obtain ⟨found, hfound⟩ := hwritten _ ((hsettings _).mpr ⟨rfl, List.cons_ne_nil _ _⟩)
    obtain ⟨rfl, -⟩ := (hsettings found).mp (hread _ hfound)
    exact hfound

/-- **The texts of test files.** What a project with tests plans at the places of tests begins with
a character that is not blank, and ends with such a character and one line break, whatever the test
templates are, except for the settings of tests: these are a line break and nothing else exactly if
their template is not blank and gives blanks only. -/
theorem neat_of_plan (hcreate : Project.create settings features tree = .ok project)
    (htesting : features.testing = true)
    (hplan : plan ⟨project, tree, messages⟩ = (.ok files, after)) :
    (∀ name ∈ "vitest.config.ts".toList :: TestFile.all.map TestFile.place,
        ∀ content, files.get? name = some content →
          content.IsNeat ∨ name = "vitest.config.ts".toList ∧ content = ['\n']) ∧
      (files.get? "vitest.config.ts".toList = some ['\n'] ↔
        ∃ engine, project.tests = some engine ∧
          TestFile.RendersBlank features "vitest.config.ts.hbs".toList ⟨engine, tree, []⟩) :=
  ⟨neat_or_line_of_plan hcreate htesting hplan, line_of_plan_iff hcreate htesting hplan⟩

/-- Test templates: a letter between blanks, and settings that are a comment. -/
def commentTree : FileTree where
  entries :=
    [(["t".toList], .directory),
     (["t".toList, "setup.ts.hbs".toList], .file (.text " x \n\n".toList)),
     (["t".toList, "vitest.config.ts.hbs".toList],
       .file (.text "\x7b\x7b!-- no settings --\x7d\x7d".toList))]
  here := []

/-- The settings of a project with these test templates. -/
def commentSettings : Settings where
  projectName := "app".toList
  testTemplatesDir := .ofText "t".toList

/-- An engine that was made with settings where there are no partials. -/
def engineWithoutPartials (settings : Engine.Settings) : Engine :=
  ⟨settings, [], ⟨some settings.partialsDir, settings.extension, [], []⟩, .empty 256⟩

/-- A project with these test templates. -/
def commentProject : Project where
  settings := commentSettings
  features := { testing := true }
  sources := engineWithoutPartials commentSettings.engine
  tests := some (engineWithoutPartials (Project.testEngineSettings commentSettings))

/-- The project is made with these settings. -/
theorem create_commentProject :
    Project.create commentSettings { testing := true } commentTree = .ok commentProject := rfl

/-- The project is planned. -/
theorem exists_plan_commentProject :
    ∃ files after, plan ⟨commentProject, commentTree, []⟩ = (.ok files, after) :=
  exists_plan (by decide +kernel) (by decide +kernel)

/-- The comment gives blanks only. -/
theorem rendersBlank_comment :
    TestFile.RendersBlank { testing := true } "vitest.config.ts.hbs".toList
      ⟨engineWithoutPartials (Project.testEngineSettings commentSettings), commentTree, []⟩ := by
  refine ⟨_, [], rfl, rfl, ?_, Action.eq_ok_of_toOption ?_, rfl⟩
  · decide +kernel
  · decide +kernel

/-- The settings of tests are planned without anything to see in them if their template is a
comment. -/
theorem settings_not_neat_of_comment :
    ∃ files after, Project.create commentSettings { testing := true } commentTree =
        .ok commentProject ∧
      plan ⟨commentProject, commentTree, []⟩ = (.ok files, after) ∧
      files.get? "vitest.config.ts".toList = some ['\n'] ∧ ¬Text.IsNeat ['\n'] := by
  obtain ⟨files, after, hplan⟩ := exists_plan_commentProject
  refine ⟨files, after, create_commentProject, hplan, ?_, ?_⟩
  · exact (line_of_plan_iff create_commentProject rfl hplan).mpr ⟨_, rfl, rendersBlank_comment⟩
  · intro hneat
    exact absurd hneat.not_isAllBlank (by decide)

/-- With these test templates, the settings are a line break, and every other test file is neat. -/
theorem neat_of_plan_with_comment :
    ∃ files after, Project.create commentSettings { testing := true } commentTree =
        .ok commentProject ∧
      ({ testing := true } : Features).testing = true ∧
      plan ⟨commentProject, commentTree, []⟩ = (.ok files, after) ∧
      files.get? "vitest.config.ts".toList = some ['\n'] ∧
      ∀ name ∈ TestFile.all.map TestFile.place, ∀ content, files.get? name = some content →
        content.IsNeat := by
  obtain ⟨files, after, hplan⟩ := exists_plan_commentProject
  have htesting : ({ testing := true } : Features).testing = true := rfl
  obtain ⟨hneat, hline⟩ := neat_of_plan create_commentProject htesting hplan
  refine ⟨files, after, create_commentProject, htesting, hplan,
    hline.mpr ⟨_, rfl, rendersBlank_comment⟩, fun name hname content hget => ?_⟩
  rcases hneat name (List.mem_cons_of_mem _ hname) content hget with hcontent | ⟨rfl, -⟩
  · exact hcontent
  · obtain ⟨file, -, hplace⟩ := List.mem_map.mp hname
    exact absurd hplace file.place_ne_settings

end Studio

end Stencil
