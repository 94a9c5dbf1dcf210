import Stencil.Proofs.Engine.Listing

/-!
# Rendering all templates at once and one by one

When all templates are rendered into files, one engine renders them one after the other, while files
appear. What it makes of a template is nevertheless what a new engine makes of it, before the run,
after it or at any point of it, unless the template includes a partial that is looked for among the
files that appear: names of partials can lead out of the directory of partials.
-/

namespace Stencil

open Template (InReach parse partialNamesAll)

/-- The templates in whose names there is none of some texts. -/
def Desk.unskipped (skip templates : List Text) : List Text :=
  templates.filter fun template => !skip.any (Text.includes · template)

/-- The file that a template is rendered into, below a directory. -/
def Desk.outputPath (output : Path) (extension template : Text) : Path :=
  output.child (outputName extension template)

/-- What a new engine makes of a template file. -/
def Engine.processNew (settings : Settings) (base : Context) (tree : FileTree) (template : Text)
    (ctx : Context) : Except Fault Text := do
  let engine ← ofSettings settings base tree
  (Desk.processFile (.ofText template) ctx ⟨engine, tree, []⟩).1

/-- A tree of files at some point of a change: at each place there is what was there before the
change or what is there behind it. -/
structure FileTree.Between (before after now : FileTree) : Prop where
  here : now.here = before.here
  names : ∀ e ∈ now.entries, ∀ name ∈ e.1, IsName name
  at? : ∀ location, now.at? location = before.at? location ∨
    now.at? location = after.at? location

namespace Desk

/-- A template file includes a partial, be it directly or through partials. -/
def Reaches (desk : Desk) (template name : Text) : Prop :=
  ∃ source reached,
    desk.tree.readText (desk.engine.templatePath (.ofText template)) = .ok source ∧
      InReach desk.source (parse source).nodes reached ∧ name ∈ partialNamesAll reached

/-- An engine at work that has kept nothing but what is in the files. -/
structure IsUpToDate (desk : Desk) : Prop where
  sound : desk.engine.cache.Sound
  path : ∀ name, desk.engine.partials.pathOf? name = some (desk.engine.settings.partialPath name)
  source : ∀ name, desk.source name = desk.tree.source (desk.engine.settings.partialPath name)

variable {start now : Desk} {template : Text} {ctx : Context}

/-- A template file gives the same on two engines with the same settings and the same base context
if the file and the partials in its reach are the same. -/
theorem processFile_congr (hstart : start.engine.cache.Sound) (hnow : now.engine.cache.Sound)
    (hsettings : now.engine.settings = start.engine.settings)
    (hbase : now.engine.base = start.engine.base) (hhere : now.tree.here = start.tree.here)
    (hway : ∀ l ∈ start.tree.way (start.engine.templatePath (.ofText template)),
      now.tree.at? l = start.tree.at? l)
    (hsource : ∀ name, start.Reaches template name → now.source name = start.source name) :
    (processFile (.ofText template) ctx now).1 = (processFile (.ofText template) ctx start).1 := by
  have hpath : now.engine.templatePath (.ofText template) =
      start.engine.templatePath (.ofText template) := by
    rw [Engine.templatePath, Engine.templatePath, hsettings]
  rw [processFile_run, processFile_run, hpath, FileTree.hasFile_congr hhere hway,
    FileTree.readText_congr hhere hway]
  cases start.tree.hasFile (start.engine.templatePath (.ofText template)) with
  | error fault => rfl
  | ok present =>
    cases present with
    | false => rfl
    | true =>
      cases hread : start.tree.readText (start.engine.templatePath (.ofText template)) with
      | error fault => rfl
      | ok source =>
        obtain ⟨_, hone, -⟩ := steady_process (steady_refl hstart) source ctx
        obtain ⟨_, htwo, -⟩ := steady_process (steady_refl hnow) source ctx
        dsimp only
        rw [hone, htwo, hsettings, hbase]
        rw [Template.outcome_congr _ _ fun reached hreached name hname =>
          hsource name ⟨source, reached, hread, hreached, hname⟩]

/-! ### In the middle of a run -/

/-- An engine that has rendered some templates into files, after it was at a start: it still gives
the same sources for the partials that are asked for, and the files are there. -/
structure Underway (start : Desk) (reach : Text → Prop) (files : List (Path × Text))
    (now : Desk) : Prop where
  settings : now.engine.settings = start.engine.settings
  base : now.engine.base = start.engine.base
  sound : now.engine.cache.Sound
  path : now.engine.partials.pathOf? = start.engine.partials.pathOf?
  source : ∀ name, reach name → now.source name = start.source name
  system : now.tree.IsFileSystem
  wrote : FileTree.Wrote files start.tree now.tree

variable {reach : Text → Prop} {files : List (Path × Text)} {paths : List Path}

/-- An engine at the start has written nothing. -/
theorem IsUpToDate.underway (h : start.IsUpToDate) (hsystem : start.tree.IsFileSystem) :
    start.Underway reach [] start :=
  ⟨rfl, rfl, h.sound, rfl, fun _ _ => rfl, hsystem, FileTree.wrote_nil start.tree⟩

/-- To render a template is no step of a run yet. -/
theorem Underway.processFile (h : start.Underway reach files now) (path : Path) (ctx : Context) :
    start.Underway reach files (Desk.processFile path ctx now).2 := by
  obtain ⟨hsettings, hbase, htree, hsource, hsound⟩ :=
    (steady_refl h.sound).processFile path ctx
  refine ⟨hsettings.trans h.settings, hbase.trans h.base, hsound, ?_, fun name hname => ?_, ?_, ?_⟩
  · exact (keptInUse_pathOf?.processFile path ctx now).trans h.path
  · rw [hsource]
    exact h.source name hname
  · rw [htree]
    exact h.system
  · rw [htree]
    exact h.wrote

/-- To write a file is a step of a run if the paths of partials do not come to where it changes
something. -/
theorem Underway.writeFile (h : start.Underway reach files now) (hstart : start.IsUpToDate)
    (hreach : ∀ name, reach name → ∀ l ∈ start.tree.way (start.engine.settings.partialPath name),
      start.tree.Spares paths l)
    (hfiles : ∀ f ∈ files, f.1 ∈ paths) {path : Path} (hpath : path ∈ paths)
    (hnormal : path.IsNormal) (hnew : ∀ f ∈ files, start.tree.place f.1 ≠ start.tree.place path)
    {text : Text} {after : Desk}
    (hrun : onTree (FileTree.writeFile path text) now = (.ok (), after)) :
    start.Underway reach (files ++ [(path, text)]) after := by
  obtain ⟨tree, hwrite, rfl⟩ := Action.zoom_eq_ok hrun
  have hwrote := h.wrote.writeFile hnew hwrite
  have hall : ∀ f ∈ files ++ [(path, text)], f.1 ∈ paths :=
    List.forall_mem_append.mpr ⟨hfiles, List.forall_mem_singleton.mpr hpath⟩
  refine ⟨h.settings, h.base, h.sound, h.path, fun name hname => ?_,
    h.system.writeFile hnormal hwrite, hwrote⟩
  have hspares := hreach name hname
  refine (Partials.source_congr fun other hother => ?_).trans (h.source name hname)
  rw [h.path, hstart.path] at hother
  obtain rfl := Option.some.inj hother
  rw [FileTree.source_congr hwrote.here fun l hl => hwrote.at?_of_spares hall (hspares l hl),
    FileTree.source_congr h.wrote.here fun l hl => h.wrote.at?_of_spares hfiles (hspares l hl)]

/-- The text that an engine makes of a template file, if it does. -/
def textOf (start : Desk) (ctx : Context) (template : Text) : Text :=
  (processFile (.ofText template) ctx start).1.toOption.getD []

/-- To render a template into a file is a step of a run, and the file gets what the engine made of
the template at the start. -/
theorem Underway.renderToFile (h : start.Underway reach files now) (hstart : start.IsUpToDate)
    (hreach : ∀ name, reach name → ∀ l ∈ start.tree.way (start.engine.settings.partialPath name),
      start.tree.Spares paths l)
    (hmine : ∀ name, start.Reaches template name → reach name)
    (htemplate : ∀ l ∈ start.tree.way (start.engine.templatePath (.ofText template)),
      start.tree.Spares paths l)
    (hfiles : ∀ f ∈ files, f.1 ∈ paths) {path written : Path} (hpath : path ∈ paths)
    (hnormal : path.IsNormal) (hnew : ∀ f ∈ files, start.tree.place f.1 ≠ start.tree.place path)
    {after : Desk}
    (hrun : Desk.renderToFile (.ofText template) path ctx now = (.ok written, after)) :
    (Desk.processFile (.ofText template) ctx start).1 = .ok (start.textOf ctx template) ∧
      start.Underway reach (files ++ [(path, start.textOf ctx template)]) after := by
  obtain ⟨text, between, hprocess, hrun⟩ := Action.bind_eq_ok hrun
  obtain ⟨_, last, hwrite, hrun⟩ := Action.bind_eq_ok hrun
  obtain rfl := (Prod.mk.inj hrun).2
  have hsame : (Desk.processFile (.ofText template) ctx now).1 =
      (Desk.processFile (.ofText template) ctx start).1 :=
    processFile_congr hstart.sound h.sound h.settings h.base h.wrote.here
      (fun l hl => h.wrote.at?_of_spares hfiles (htemplate l hl))
      fun name hname => h.source name (hmine name hname)
  rw [hprocess] at hsame
  have htext : start.textOf ctx template = text := by rw [textOf, ← hsame]; rfl
  have hbetween := h.processFile (.ofText template) ctx
  rw [hprocess] at hbetween
  rw [htext]
  exact ⟨hsame.symm, hbetween.writeFile hstart hreach hfiles hpath hnormal hnew hwrite⟩

/-! ### Whole runs -/

/-- All templates that are not skipped are rendered into files, one after the other. -/
theorem renderAll_nil_run {output : Path} {skip templates : List Text}
    (hlist : listTemplates [] start = (.ok templates, start)) :
    renderAll [] output ctx skip start =
      ((unskipped skip templates).mapM fun template =>
        Desk.renderToFile (.ofText template)
          (outputPath output start.engine.settings.extension template) ctx) start := by
  have hget : (get : Action Desk Desk) start = (.ok start, start) := rfl
  rw [renderAll, Action.bind_run, hlist]
  dsimp only
  rw [Action.bind_run, hget]
  rfl

/-- A run over templates at the start of which an engine was up to date: the files of the templates
that are done are there, with what the engine made of them at the start. -/
def HasDone (start : Desk) (reach : Text → Prop) (file : Text → Path) (ctx : Context)
    (done : List Text) (now : Desk) : Prop :=
  (∀ template ∈ done,
      (processFile (.ofText template) ctx start).1 = .ok (start.textOf ctx template)) ∧
    start.Underway reach (done.map fun template => (file template, start.textOf ctx template)) now

/-- The file of a template that is done holds what the engine made of the template at the start. -/
theorem HasDone.content {file : Text → Path} {done : List Text}
    (h : start.HasDone reach file ctx done now) (hmem : template ∈ done) :
    now.tree.content (file template) = .ok (.text (start.textOf ctx template)) :=
  FileTree.content_of_find <| FileTree.find_eq_ok_iff.mpr <|
    h.2.wrote.file (file template, start.textOf ctx template) (List.mem_map_of_mem hmem)

/-- A place that is spared by the files of the templates has what it had at the start. -/
theorem HasDone.at?_of_spares {file : Text → Path} {done : List Text}
    (h : start.HasDone reach file ctx done now) {l : Location}
    (hspares : start.tree.Spares (done.map file) l) : now.tree.at? l = start.tree.at? l := by
  refine h.2.wrote.at?_of_spares ?_ hspares
  rw [List.forall_mem_map]
  exact fun template hmem => List.mem_map_of_mem hmem

/-- There are the same files as at the start besides those of the templates that are done. -/
theorem HasDone.file_iff {file : Text → Path} {done : List Text}
    (h : start.HasDone reach file ctx done now) {l : Location}
    (hother : ∀ template ∈ done, l ≠ start.tree.place (file template)) (content : Content) :
    now.tree.at? l = some (.file content) ↔ start.tree.at? l = some (.file content) := by
  rcases h.2.wrote.other l (List.forall_mem_map.mpr hother) with hsame | ⟨hnone, hmade, -⟩
  · rw [hsame]
  · rw [hnone, hmade]
    exact ⟨nofun, nofun⟩

/-- Templates that are rendered into files without a change to anything that is read for them: each
has a file of its own, and neither their paths nor those of the partials that are asked for come to
where a file changes something. -/
structure Undisturbed (start : Desk) (reach : Text → Prop) (file : Text → Path)
    (kept : List Text) : Prop where
  normal : ∀ template, (file template).IsNormal
  nodup : (kept.map fun template => start.tree.place (file template)).Nodup
  templates : ∀ template ∈ kept,
    ∀ l ∈ start.tree.way (start.engine.templatePath (.ofText template)),
      start.tree.Spares (kept.map file) l
  partials : ∀ name, reach name →
    ∀ l ∈ start.tree.way (start.engine.settings.partialPath name),
      start.tree.Spares (kept.map file) l
  reach : ∀ template ∈ kept, ∀ name, start.Reaches template name → reach name

/-- One template more is done when it is rendered into its file. -/
theorem HasDone.renderToFile {file : Text → Path} {done rest : List Text}
    (h : start.HasDone reach file ctx done now) (hstart : start.IsUpToDate)
    (hkept : start.Undisturbed reach file (done ++ template :: rest)) {written : Path}
    {after : Desk}
    (hrun : Desk.renderToFile (.ofText template) (file template) ctx now = (.ok written, after)) :
    start.HasDone reach file ctx (done ++ [template]) after := by
  have hmem : template ∈ done ++ template :: rest :=
    List.mem_append_right _ List.mem_cons_self
  have hfiles : ∀ f ∈ done.map fun template => (file template, start.textOf ctx template),
      f.1 ∈ (done ++ template :: rest).map file := by
    rw [List.forall_mem_map]
    exact fun other hother => List.mem_map_of_mem (List.mem_append_left _ hother)
  have hnew : ∀ f ∈ done.map fun template => (file template, start.textOf ctx template),
      start.tree.place f.1 ≠ start.tree.place (file template) := by
    rw [List.forall_mem_map]
    have hnodup := hkept.nodup
    rw [List.map_append, List.nodup_append] at hnodup
    exact fun other hother => hnodup.2.2 _ (List.mem_map_of_mem hother) _ List.mem_cons_self
  obtain ⟨htext, hunder⟩ := h.2.renderToFile hstart hkept.partials (hkept.reach template hmem)
    (hkept.templates template hmem) hfiles (List.mem_map_of_mem hmem) (hkept.normal template) hnew
    hrun
  refine ⟨List.forall_mem_append.mpr ⟨h.1, List.forall_mem_singleton.mpr htext⟩, ?_⟩
  rw [List.map_append]
  exact hunder

/-- After a run all templates are done. -/
theorem hasDone_of_mapM (hstart : start.IsUpToDate) (hsystem : start.tree.IsFileSystem)
    {kept : List Text} {file : Text → Path} (hkept : start.Undisturbed reach file kept)
    {written : List Path} {after : Desk}
    (hrun : kept.mapM
      (fun template => Desk.renderToFile (.ofText template) (file template) ctx) start =
        (.ok written, after)) :
    start.HasDone reach file ctx kept after := by
  refine Action.of_mapM (fun done template rest now path later heq hdone hone => ?_)
    ⟨List.forall_mem_nil _, hstart.underway hsystem⟩ hrun
  exact hdone.renderToFile hstart (heq ▸ hkept) hone

/-- A new engine makes the same of a template file on a tree in which the file and the files of the
partials in its reach are the same. -/
theorem processNew_eq (hstart : start.IsUpToDate) {tree : FileTree}
    (hnames : ∀ e ∈ tree.entries, ∀ name ∈ e.1, FileTree.IsName name)
    (hhere : tree.here = start.tree.here)
    (htemplate : ∀ l ∈ start.tree.way (start.engine.templatePath (.ofText template)),
      tree.at? l = start.tree.at? l)
    (hpartials : ∀ name, start.Reaches template name →
      ∀ l ∈ start.tree.way (start.engine.settings.partialPath name),
        tree.at? l = start.tree.at? l)
    (hbuild : (Engine.ofSettings start.engine.settings start.engine.base tree).isOk) :
    Engine.processNew start.engine.settings start.engine.base tree template ctx =
      (processFile (.ofText template) ctx start).1 := by
  rw [Engine.processNew]
  cases hnew : Engine.ofSettings start.engine.settings start.engine.base tree with
  | error fault =>
    rw [hnew] at hbuild
    contradiction
  | ok engine =>
    have hbuilt : Engine.build start.engine.settings start.engine.base tree none = .ok engine :=
      hnew
    obtain ⟨partials, -, -, rfl⟩ := Engine.build_eq_ok.mp hbuilt
    change (processFile (.ofText template) ctx
      ⟨⟨start.engine.settings, start.engine.base, partials, _⟩, tree, []⟩).1 = _
    refine processFile_congr hstart.sound (Cache.sound_empty _) rfl rfl hhere htemplate
      fun name hname => ?_
    rw [hstart.source, ← FileTree.source_congr hhere (hpartials name hname)]
    exact (Engine.source_of_ofSettings hnames hnew name).2

variable {settings : Engine.Settings} {base : Context} {tree : FileTree} {engine : Engine}

/-- An engine that was built on a tree of files is up to date, whatever calls were made on it
since. -/
theorem isUpToDate_runAll (hsystem : tree.IsFileSystem)
    (hbuild : Engine.ofSettings settings base tree = .ok engine) (calls : List Call)
    (messages : List Message) :
    (Call.runAll calls ⟨engine, tree, messages⟩).IsUpToDate ∧
      (Call.runAll calls ⟨engine, tree, messages⟩).engine.settings = settings ∧
      (Call.runAll calls ⟨engine, tree, messages⟩).engine.base = Call.baseAfter calls base ∧
      (Call.runAll calls ⟨engine, tree, messages⟩).tree = tree := by
  have hnew : Engine.build settings base tree none = .ok engine := hbuild
  have hsource := Engine.source_of_ofSettings hsystem.names hbuild
  obtain ⟨partials, -, -, rfl⟩ := Engine.build_eq_ok.mp hnew
  have hfresh : (Desk.mk ⟨settings, base, partials, .empty settings.compileCacheSize⟩ tree
      messages).engine.cache.Sound := Cache.sound_empty settings.compileCacheSize
  obtain ⟨hsettings, hbase, htree, hkept, hsound⟩ :=
    Call.steady_runAll (Desk.steady_refl hfresh) calls
  refine ⟨⟨hsound, fun name => ?_, fun name => ?_⟩, hsettings, hbase, htree⟩
  · rw [Call.pathOf?_runAll, hsettings]
    exact (hsource name).1
  · rw [hkept, hsettings, htree]
    exact (hsource name).2

/-- **Rendering all templates at once is rendering them one by one.** An engine was built on a file
system, and perhaps used since. If all its templates that are not skipped can be rendered into a
directory that is apart from theirs, and no partial that they include is looked for on a way along
which this changes something, then the files that are written are those of the templates that are
not skipped, by their names without the extension; no two templates share a file; each file holds
what a new engine makes of its template, before the run, or on the files at any point of it; and no
other file is changed. -/
theorem renderAll_one_by_one (hsystem : tree.IsFileSystem)
    (hbuild : Engine.ofSettings settings base tree = .ok engine) {calls : List Call}
    {messages : List Message} {desk after : Desk}
    (hdesk : Call.runAll calls ⟨engine, tree, messages⟩ = desk) {out : Text}
    {skip templates : List Text} {written : List Path}
    (hlist : (listTemplates [] desk).1 = .ok templates)
    (hstems : ∀ template ∈ templates,
      outputStem settings.extension template ∉ ["".toList, ".".toList, "..".toList])
    (hapart : FileTree.Apart (tree.place (.ofText out)) (tree.place settings.templatesDir))
    (hpartials : ∀ template ∈ unskipped skip templates, ∀ name, desk.Reaches template name →
      ∀ l ∈ tree.way (settings.partialPath name), tree.Spares
        ((unskipped skip templates).map (outputPath (.ofText out) settings.extension)) l)
    (hrun : renderAll [] (.ofText out) ctx skip desk = (.ok written, after)) :
    written = (unskipped skip templates).map (outputPath (.ofText out) settings.extension) ∧
      (templates.map fun template =>
        tree.place (outputPath (.ofText out) settings.extension template)).Nodup ∧
      (∀ template ∈ unskipped skip templates, ∃ text,
        after.tree.content (outputPath (.ofText out) settings.extension template) =
            .ok (.text text) ∧
          Engine.processNew settings (Call.baseAfter calls base) tree template ctx = .ok text ∧
          ∀ now, FileTree.Between tree after.tree now →
            (Engine.ofSettings settings (Call.baseAfter calls base) now).isOk →
              Engine.processNew settings (Call.baseAfter calls base) now template ctx =
                .ok text) ∧
      FileTree.Between tree after.tree after.tree ∧
      ∀ location, (∀ template ∈ unskipped skip templates,
          location ≠ tree.place (outputPath (.ofText out) settings.extension template)) →
        ∀ content, after.tree.at? location = some (.file content) ↔
          tree.at? location = some (.file content) := by
  obtain ⟨hstart, hsettings, hbase, htree⟩ :=
    isUpToDate_runAll hsystem hbuild calls messages
  rw [hdesk] at hstart hsettings hbase htree
  subst hsettings htree
  have hnodup := nodup_place_output hsystem hlist hstems (.ofText out)
  have hkept : (unskipped skip templates).Sublist templates := List.filter_sublist
  have htemplates : ∀ template ∈ unskipped skip templates,
      ∀ l ∈ desk.tree.way (desk.engine.templatePath (.ofText template)),
        desk.tree.Spares ((unskipped skip templates).map
          (outputPath (.ofText out) desk.engine.settings.extension)) l := fun template hmem =>
    spares_output hsystem hlist hstems hapart hkept.subset (hkept.subset hmem)
  rw [renderAll_nil_run (listTemplates_nil_eq hlist)] at hrun
  have hdone : desk.HasDone
      (fun name => ∃ template ∈ unskipped skip templates, desk.Reaches template name)
      (outputPath (.ofText out) desk.engine.settings.extension) ctx (unskipped skip templates)
      after :=
    hasDone_of_mapM hstart hsystem
      { normal := fun template => (Path.isNormal_ofText out).child _
        nodup := (hkept.map _).nodup hnodup
        templates := htemplates
        partials := fun name ⟨template, hmem, hreaches⟩ => hpartials template hmem name hreaches
        reach := fun template hmem name hreaches => ⟨template, hmem, hreaches⟩ } hrun
  rw [← hbase]
  refine ⟨?_, hnodup, fun template hmem =>
    ⟨desk.textOf ctx template, hdone.content hmem, ?_, ?_⟩, ?_, fun location => hdone.file_iff⟩
  · exact Action.eq_map_of_mapM (fun _ _ _ _ h => eq_of_renderToFile h) hrun
  · rw [← hdone.1 template hmem]
    refine processNew_eq hstart hsystem.names rfl (fun _ _ => rfl) (fun _ _ _ _ => rfl) ?_
    exact Engine.isOk_ofSettings hbuild _
  · intro now hbetween hnew
    rw [← hdone.1 template hmem]
    have hnow {l : Location} (hl : desk.tree.Spares ((unskipped skip templates).map
        (outputPath (.ofText out) desk.engine.settings.extension)) l) :
        now.at? l = desk.tree.at? l :=
      (hbetween.at? l).elim id fun h => h.trans (hdone.at?_of_spares hl)
    exact processNew_eq hstart hbetween.names hbetween.here
      (fun l hl => hnow (htemplates template hmem l hl))
      (fun name hname l hl => hnow (hpartials template hmem name hname l hl)) hnew
  · exact ⟨hdone.2.wrote.here, hdone.2.system.names, fun _ => Or.inr rfl⟩

/-! ### Partials among the files that are written -/

/-- Settings with templates in a directory at hand. -/
def crossingSettings : Engine.Settings where
  templatesDir := .ofText "templates".toList

/-- Templates of which some include what is or will be in a directory besides theirs, with what is
in this directory. -/
def crossingTree (out : List (Location × Entry)) : FileTree where
  entries :=
    [(["templates".toList], .directory),
     (["templates".toList, "a.hbs".toList], .file (.text "\x7b\x7b> p\x7d\x7d".toList)),
     (["templates".toList, "f.hbs.hbs".toList],
       .file (.text "\x7b\x7b> ../../out/g\x7d\x7d".toList)),
     (["templates".toList, "g.hbs.hbs".toList], .file (.text "N".toList)),
     (["templates".toList, "partials".toList], .directory),
     (["templates".toList, "partials".toList, "p.hbs".toList], .file (.text "P".toList)),
     (["templates".toList, "z.hbs".toList],
       .file (.text "\x7b\x7b> ../../out/f\x7d\x7d\x7b\x7b> ../../out/g\x7d\x7d".toList)),
     (["out".toList], .directory)] ++ out
  here := []

/-- What was in the directory before. -/
def crossingBefore : List (Location × Entry) :=
  [(["out".toList, "g.hbs".toList], .file (.text "O".toList))]

/-- What is in the directory after all templates were rendered into it. -/
def crossingAfter : List (Location × Entry) :=
  [(["out".toList, "g.hbs".toList], .file (.text "N".toList)),
   (["out".toList, "a".toList], .file (.text "P".toList)),
   (["out".toList, "f.hbs".toList], .file (.text "O".toList)),
   (["out".toList, "z".toList], .file (.text "OO".toList))]

/-- A new engine for these templates. -/
def crossingEngine (base : Context) : Engine :=
  ⟨crossingSettings, base,
    ⟨some crossingSettings.partialsDir, ".hbs".toList,
      [("p".toList, .ofText "templates/partials/p.hbs".toList)], []⟩, .empty 256⟩

/-- The engine is built on these templates. -/
theorem ofSettings_crossing (base : Context) {out : List (Location × Entry)}
    (h : (crossingTree out).filesUnder ["templates".toList, "partials".toList] =
      [(["p.hbs".toList], .text "P".toList)]) :
    Engine.ofSettings crossingSettings base (crossingTree out) = .ok (crossingEngine base) := by
  have hfiles : Partials.filesWith (crossingTree out) crossingSettings.partialsDir
      ".hbs".toList = .ok [["p.hbs".toList]] := by
    rw [Partials.filesWith, FileTree.filesBelow]
    have hfound : (crossingTree out).find? crossingSettings.partialsDir =
        .ok (some (["templates".toList, "partials".toList], .directory)) := rfl
    rw [hfound]
    change Except.ok ((((crossingTree out).filesUnder
      ["templates".toList, "partials".toList]).map (·.1)).filter _) = _
    rw [h]
    rfl
  have hsettings : crossingSettings.extension = ".hbs".toList := rfl
  rw [Engine.ofSettings, Partials.ofDirectory, Partials.discover, hsettings, hfiles]
  rfl

/-- The file of the partial is found, whatever is in the other directory. -/
theorem filesUnder_crossing :
    (crossingTree crossingBefore).filesUnder ["templates".toList, "partials".toList] =
        [(["p.hbs".toList], .text "P".toList)] ∧
      (crossingTree crossingAfter).filesUnder ["templates".toList, "partials".toList] =
        [(["p.hbs".toList], .text "P".toList)] :=
  ⟨List.mergeSort_singleton _, List.mergeSort_singleton _⟩

/-- The engine before anything is rendered. -/
def crossingDesk : Desk := ⟨crossingEngine [], crossingTree crossingBefore, []⟩

/-- The templates are on a file system. -/
theorem isFileSystem_crossing : (crossingTree crossingBefore).IsFileSystem where
  tree := FileTree.isTree_of_entries (by decide +kernel) (by decide +kernel)
  nodup := by decide +kernel
  names := by decide +kernel

/-- The templates that are listed. -/
theorem listTemplates_crossing {desk : Desk} (hsettings : desk.engine.settings = crossingSettings)
    (htree : desk.tree = crossingTree crossingBefore) :
    listTemplates [] desk =
      (.ok ["a.hbs".toList, "f.hbs.hbs".toList, "g.hbs.hbs".toList, "z.hbs".toList], desk) := by
  have hroot : desk.tree.find desk.engine.settings.templatesDir =
      .ok (["templates".toList], .directory) := by
    rw [hsettings, htree]
    rfl
  have hfiles : (desk.tree.filesUnder ["templates".toList]).map (·.1) =
      [["a.hbs".toList], ["f.hbs.hbs".toList], ["g.hbs.hbs".toList],
        ["partials".toList, "p.hbs".toList], ["z.hbs".toList]] := by
    rw [htree, FileTree.filesUnder, List.mergeSort_of_pairwise (by decide +kernel)]
    decide +kernel
  have hnames : desk.templateNames desk.engine.settings.templatesDir ["templates".toList] =
      [["a.hbs".toList], ["f.hbs.hbs".toList], ["g.hbs.hbs".toList], ["z.hbs".toList]] := by
    rw [templateNames, hfiles, hsettings]
    decide +kernel
  rw [listTemplates_nil_run hroot, templatesBelow, hnames,
    List.mergeSort_of_pairwise (by decide +kernel)]
  rfl

/-- When all these templates are rendered into the other directory, partials come from there: some
as they were before, some as they are by then. -/
theorem exists_renderAll_crossing :
    ∃ written after,
      renderAll [] (.ofText "out".toList) [] [] crossingDesk = (.ok written, after) ∧
        after.tree = crossingTree crossingAfter := by
  obtain ⟨written, after, hrun⟩ :
      ∃ written after,
        renderAll [] (.ofText "out".toList) [] [] crossingDesk = (.ok written, after) := by
    rw [renderAll_nil_run (listTemplates_crossing rfl rfl)]
    exact Action.exists_of_isOk (by decide +kernel)
  refine ⟨written, after, hrun, ?_⟩
  have hafter : (renderAll [] (.ofText "out".toList) [] [] crossingDesk).2.tree.entries =
      (crossingTree crossingAfter).entries := by
    rw [renderAll_nil_run (listTemplates_crossing rfl rfl)]
    decide +kernel
  have hhere : (renderAll [] (.ofText "out".toList) [] [] crossingDesk).2.tree.here = [] := by
    rw [renderAll_nil_run (listTemplates_crossing rfl rfl)]
    decide +kernel
  rw [hrun] at hafter hhere
  obtain ⟨engine, ⟨entries, here⟩, messages⟩ := after
  dsimp only at hafter hhere
  rw [hafter, hhere]
  rfl

/-- A new engine makes something else of the last of these templates than was written for it, be it
built before the templates were rendered or after. -/
theorem renderAll_ne_one_by_one :
    let templates := ["a.hbs".toList, "f.hbs.hbs".toList, "g.hbs.hbs".toList, "z.hbs".toList]
    let tree := crossingTree crossingBefore
    tree.IsFileSystem ∧ Engine.ofSettings crossingSettings [] tree = .ok (crossingEngine []) ∧
      (listTemplates [] crossingDesk).1 = .ok templates ∧
      (∀ template ∈ templates, outputStem crossingSettings.extension template ∉
        ["".toList, ".".toList, "..".toList]) ∧
      FileTree.Apart (tree.place (.ofText "out".toList))
        (tree.place crossingSettings.templatesDir) ∧
      FileTree.Apart (tree.place (.ofText "out".toList))
        (tree.place crossingSettings.partialsDir) ∧
      ∃ written after,
        renderAll [] (.ofText "out".toList) [] [] crossingDesk = (.ok written, after) ∧
        after.tree.content (.ofText "out/z".toList) = .ok (.text "OO".toList) ∧
        Engine.processNew crossingSettings [] tree "z.hbs".toList [] =
          .ok "<!-- Partial \"../../out/f\" not found -->O".toList ∧
        Engine.processNew crossingSettings [] after.tree "z.hbs".toList [] = .ok "ON".toList := by
  intro templates tree
  obtain ⟨written, after, hrun, hafter⟩ := exists_renderAll_crossing
  have hbefore := ofSettings_crossing [] filesUnder_crossing.1
  refine ⟨isFileSystem_crossing, hbefore, by rw [listTemplates_crossing rfl rfl], by decide +kernel,
    by decide +kernel, by decide +kernel, written, after, hrun, ?_, ?_, ?_⟩
  · rw [hafter]
    exact Action.eq_ok_of_toOption (by decide +kernel)
  · rw [Engine.processNew, hbefore]
    exact Action.eq_ok_of_toOption (by decide +kernel)
  · rw [Engine.processNew, hafter, ofSettings_crossing [] filesUnder_crossing.2]
    exact Action.eq_ok_of_toOption (by decide +kernel)

/-- The partials that these templates include. -/
def crossingNames : List Text := ["p".toList, "../../out/f".toList, "../../out/g".toList]

/-- The templates reach no other partials. -/
theorem mem_crossingNames_of_reaches {desk : Desk} (hdesk : desk.IsUpToDate)
    (hsettings : desk.engine.settings = crossingSettings)
    (htree : desk.tree = crossingTree crossingBefore) {template name : Text}
    (htemplate : template ∈ ["a.hbs".toList, "z.hbs".toList]) (h : desk.Reaches template name) :
    name ∈ crossingNames := by
  obtain ⟨source, reached, hread, hreached, hname⟩ := h
  rw [htree, Engine.templatePath, hsettings] at hread
  have hfirst : ∀ template ∈ ["a.hbs".toList, "z.hbs".toList], ∀ source ∈ ((crossingTree
      crossingBefore).readText (crossingSettings.templatesDir.join (.ofText template))).toOption,
      ∀ name ∈ partialNamesAll (parse source).nodes, name ∈ crossingNames := by decide +kernel
  have hinner : ∀ name ∈ crossingNames, ∀ found ∈ ((crossingTree crossingBefore).source
      (crossingSettings.partialPath name)).toOption, ∀ source ∈ found,
      ∀ other ∈ partialNamesAll (parse source).nodes, other ∈ crossingNames := by decide +kernel
  refine hreached.mem_of_closed (hfirst template htemplate source ?_)
    (fun name hname source hsource => hinner name hname (some source) ?_ source rfl) name hname
  · rw [hread]
    rfl
  · rw [hdesk.source, hsettings, htree] at hsource
    rw [hsource]
    rfl

/-- Two of these templates are skipped, so no partial changes. Then what is written for the others
is what a new engine makes of them, also for the one that asks for partials in the directory where
the files are written. -/
theorem renderAll_one_by_one_crossing :
    let templates := ["a.hbs".toList, "f.hbs.hbs".toList, "g.hbs.hbs".toList, "z.hbs".toList]
    let tree := crossingTree crossingBefore
    let calls : List Call := [.loadSource "../../out/g".toList, .extendBase [(['x'], .null)]]
    let skip := ["f".toList, "g".toList]
    let out := "out".toList
    let desk := Call.runAll calls ⟨crossingEngine [], tree, []⟩
    let text := "<!-- Partial \"../../out/f\" not found -->O".toList
    tree.IsFileSystem ∧ Engine.ofSettings crossingSettings [] tree = .ok (crossingEngine []) ∧
      (listTemplates [] desk).1 = .ok templates ∧
      (∀ template ∈ templates, outputStem crossingSettings.extension template ∉
        ["".toList, ".".toList, "..".toList]) ∧
      FileTree.Apart (tree.place (.ofText out)) (tree.place crossingSettings.templatesDir) ∧
      (∀ template ∈ unskipped skip templates, ∀ name, desk.Reaches template name →
        ∀ l ∈ tree.way (crossingSettings.partialPath name), tree.Spares
          ((unskipped skip templates).map (outputPath (.ofText out) crossingSettings.extension))
            l) ∧
      ∃ written after, renderAll [] (.ofText out) [] skip desk = (.ok written, after) ∧
        written = [.ofText "out/a".toList, .ofText "out/z".toList] ∧
        after.tree.content (.ofText "out/z".toList) = .ok (.text text) ∧
        Engine.processNew crossingSettings [(['x'], .null)] tree "z.hbs".toList [] = .ok text := by
  intro templates tree calls skip out desk text
  have hsystem : tree.IsFileSystem := isFileSystem_crossing
  have hbuild : Engine.ofSettings crossingSettings [] tree = .ok (crossingEngine []) :=
    ofSettings_crossing [] filesUnder_crossing.1
  obtain ⟨hdesk, hsettings, -, htree⟩ := isUpToDate_runAll hsystem hbuild calls []
  have hlist := listTemplates_crossing hsettings htree
  have hlisted : (listTemplates [] desk).1 = .ok templates := congrArg Prod.fst hlist
  have hstems : ∀ template ∈ templates, outputStem crossingSettings.extension template ∉
      ["".toList, ".".toList, "..".toList] := by decide +kernel
  have hapart : FileTree.Apart (tree.place (.ofText out))
      (tree.place crossingSettings.templatesDir) := by decide +kernel
  have hkept : unskipped skip templates = ["a.hbs".toList, "z.hbs".toList] := by decide +kernel
  have hspares : ∀ name ∈ crossingNames, ∀ l ∈ tree.way (crossingSettings.partialPath name),
      tree.Spares ((unskipped skip templates).map
        (outputPath (.ofText out) crossingSettings.extension)) l := by decide +kernel
  have hpartials : ∀ template ∈ unskipped skip templates, ∀ name, desk.Reaches template name →
      ∀ l ∈ tree.way (crossingSettings.partialPath name), tree.Spares
        ((unskipped skip templates).map (outputPath (.ofText out) crossingSettings.extension))
          l := fun template hmem name hreaches =>
    hspares name (mem_crossingNames_of_reaches hdesk hsettings htree (hkept ▸ hmem) hreaches)
  obtain ⟨written, after, hrun⟩ :
      ∃ written after, renderAll [] (.ofText out) [] skip desk = (.ok written, after) := by
    rw [renderAll_nil_run hlist]
    exact Action.exists_of_isOk (by decide +kernel)
  obtain ⟨hwritten, -, htexts, -, -⟩ :=
    renderAll_one_by_one hsystem hbuild rfl hlisted hstems hapart hpartials hrun
  obtain ⟨found, hcontent, hnew, -⟩ := htexts "z.hbs".toList (by rw [hkept]; simp)
  have hbase : Call.baseAfter calls [] = [(['x'], .null)] := rfl
  rw [hbase] at hnew
  have htext : Engine.processNew crossingSettings [(['x'], .null)] tree "z.hbs".toList [] =
      .ok text := by
    rw [Engine.processNew, ofSettings_crossing _ filesUnder_crossing.1]
    exact Action.eq_ok_of_toOption (by decide +kernel)
  obtain rfl := Except.ok.inj (hnew.symm.trans htext)
  exact ⟨hsystem, hbuild, hlisted, hstems, hapart, hpartials, written, after, hrun,
    by rw [hwritten, hkept]; decide +kernel, hcontent, htext⟩

end Desk

end Stencil
