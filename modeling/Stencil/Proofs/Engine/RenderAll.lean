import Stencil.Engine.Batch
import Stencil.Proofs.Path
import Stencil.Proofs.Simulation
import Stencil.Proofs.Text.Order

/-!
# Rendering all templates below a directory

Templates are listed by their names seen from the directory of the engine. When all templates below
a subdirectory are rendered, as many characters as the subdirectory is spelled with are cut off
these names, and then slashes. What is left is the name seen from the subdirectory exactly if the
spelling is at most one character longer than the path that it stands for.
-/

namespace Stencil

/-- The names in a tree are such as paths have: not empty and without a slash. -/
def FileTree.IsNamed (tree : FileTree) : Prop :=
  ∀ e ∈ tree.entries, ∀ name ∈ e.1, name ≠ [] ∧ '/' ∉ name

instance (tree : FileTree) : Decidable tree.IsNamed :=
  decidable_of_iff (tree.entries.all fun e => e.1.all fun name => name ≠ [] && !name.contains '/')
    (by simp [FileTree.IsNamed])

/-- The files below a location are those whose places go on from the location, with the names that
they have behind it. -/
theorem FileTree.mem_filesUnder_iff {tree : FileTree} {location : Location} {names : List Text}
    {content : Content} :
    (names, content) ∈ tree.filesUnder location ↔
      names ≠ [] ∧ (location ++ names, Entry.file content) ∈ tree.entries := by
  simp only [filesUnder, List.mem_mergeSort, List.mem_filterMap]
  constructor
  · rintro ⟨⟨place, entry⟩, hentry, hfile⟩
    cases entry with
    | directory => contradiction
    | file held =>
      dsimp only at hfile
      split at hfile
      · contradiction
      · next after hempty hafter =>
        obtain ⟨rfl, rfl⟩ := Prod.mk.inj (Option.some.inj hfile)
        rw [List.isPrefixOf?_eq_some_iff_append_eq.mp hafter]
        exact ⟨hempty, hentry⟩
      · contradiction
  · rintro ⟨hnames, hentry⟩
    refine ⟨_, hentry, ?_⟩
    obtain ⟨name, rest, rfl⟩ := List.exists_cons_of_ne_nil hnames
    have hafter : location.isPrefixOf? (location ++ name :: rest) = some (name :: rest) :=
      List.isPrefixOf?_eq_some_iff_append_eq.mpr rfl
    simp only [hafter]

/-- The files with an extension below a directory that is found. -/
theorem Partials.filesWith_of_find {tree : FileTree} {directory : Path} {location : Location}
    (h : tree.find directory = .ok (location, .directory)) (extension : Text) :
    filesWith tree directory extension = .ok (((tree.filesUnder location).map (·.1)).filter
      fun names => names.getLast?.any (Text.endsWith extension)) := by
  rw [filesWith, FileTree.filesBelow, FileTree.find?, h]
  rfl

namespace Desk

/-- The names that lead to the templates below a directory, which is at a location. Partials are
left out. -/
def templateNames (desk : Desk) (directory : Path) (location : Location) : List (List Text) :=
  ((desk.tree.filesUnder location).map (·.1)).filter fun names =>
    names.getLast?.any (Text.endsWith desk.engine.settings.extension) &&
      !(Partials.pathBelow directory names).isBelow desk.engine.settings.partialsDir

/-- The templates below a directory by their names seen from there, in order. -/
def templatesBelow (desk : Desk) (directory : Path) (location : Location) : List Text :=
  ((desk.templateNames directory location).map fun names => Path.text ⟨.here, names⟩).mergeSort
    Text.le

/-- The name of a template below a subdirectory, seen from the directory of the engine. -/
def qualified (relative : Path) (name : Text) : Text :=
  if relative.parts.isEmpty then name else relative.text ++ '/' :: name

variable {desk : Desk} {subdirectory : Text} {location : Location} {relative : Path}

/-- The templates below a directory are the files below it with the extension, less the partials. -/
theorem mem_templateNames_iff {directory : Path} {names : List Text} :
    names ∈ desk.templateNames directory location ↔
      names ≠ [] ∧ (∃ content, (location ++ names, Entry.file content) ∈ desk.tree.entries) ∧
        names.getLast?.any (Text.endsWith desk.engine.settings.extension) ∧
        (Partials.pathBelow directory names).isBelow desk.engine.settings.partialsDir = false := by
  have hfile : names ∈ (desk.tree.filesUnder location).map (·.1) ↔
      names ≠ [] ∧ ∃ content, (location ++ names, Entry.file content) ∈ desk.tree.entries := by
    constructor
    · intro h
      obtain ⟨⟨names, content⟩, hmem, rfl⟩ := List.mem_map.mp h
      obtain ⟨hnames, hentry⟩ := FileTree.mem_filesUnder_iff.mp hmem
      exact ⟨hnames, content, hentry⟩
    · rintro ⟨hnames, content, hentry⟩
      exact List.mem_map.mpr ⟨_, FileTree.mem_filesUnder_iff.mpr ⟨hnames, hentry⟩, rfl⟩
  rw [templateNames, List.mem_filter, hfile, Bool.and_eq_true, Bool.not_eq_true', and_assoc]

/-- The name of a template seen from the directory of the engine. -/
theorem text_qualified (hanchor : relative.anchor = .here) {names : List Text}
    (hnames : names ≠ []) :
    Path.text ⟨.here, relative.parts ++ names⟩ =
      qualified relative (Path.text ⟨.here, names⟩) := by
  obtain ⟨anchor, parts⟩ := relative
  dsimp only at hanchor
  subst hanchor
  by_cases hparts : parts = []
  · rw [hparts]
    rfl
  · have hall : parts ++ names ≠ [] := by simp [hparts]
    rw [qualified, if_neg (by simpa using hparts), Path.text_here hall, Path.text_here hparts,
      Path.text_here hnames, Path.intercalate_append hparts hnames]

/-- Names keep their order when they are seen from the directory of the engine. -/
@[simp] theorem le_qualified (relative : Path) (s t : Text) :
    Text.le (qualified relative s) (qualified relative t) = Text.le s t := by
  unfold qualified
  split
  · rfl
  · rw [Text.le_append]
    exact Text.le_append ['/'] s t

/-- Templates that are sorted by their names below a subdirectory are sorted by their names seen
from the directory of the engine. -/
theorem mergeSort_qualified (directory : Path) (relative : Path) :
    ((desk.templateNames directory location).map fun names =>
      qualified relative (Path.text ⟨.here, names⟩)).mergeSort Text.le =
        (desk.templatesBelow directory location).map (qualified relative) := by
  rw [templatesBelow, List.map_mergeSort fun s _ t _ => (le_qualified relative s t).symm,
    List.map_map]
  rfl

/-- Leaving out the partials among the files with the extension leaves the templates. -/
theorem filter_pathBelow (directory : Path) :
    ((((desk.tree.filesUnder location).map (·.1)).filter fun names =>
      names.getLast?.any (Text.endsWith desk.engine.settings.extension)).map
        (Partials.pathBelow directory)).filter
          (fun path => !path.isBelow desk.engine.settings.partialsDir) =
      (desk.templateNames directory location).map (Partials.pathBelow directory) := by
  rw [List.filter_map, templateNames, List.filter_filter]
  refine congrArg _ (List.filter_congr fun names _ => ?_)
  rw [Bool.and_comm]
  rfl

/-- Where a search starts, seen from the directory of the engine. -/
theorem relativeTo?_searchDirectory (engine : Engine)
    (h : (Path.ofText subdirectory).isAbsolute = false) :
    (searchDirectory engine subdirectory).relativeTo? engine.settings.templatesDir =
      some (Path.ofText subdirectory) := by
  unfold searchDirectory
  split
  · next hempty =>
    rw [List.isEmpty_iff.mp hempty, Path.relativeTo?_eq_some_iff]
    exact ⟨congrArg (Path.mk _) (List.append_nil _).symm, rfl⟩
  · exact Path.relativeTo?_child h _

/-- The path of a template below a subdirectory, seen from the directory of the engine. -/
theorem relativeTo?_pathBelow {directory root : Path}
    (h : directory.relativeTo? root = some relative) (names : List Text) :
    (Partials.pathBelow directory names).relativeTo? root =
      some ⟨.here, relative.parts ++ names⟩ := by
  rw [Path.relativeTo?_eq_some_iff, (Path.relativeTo?_eq_some_iff.mp h).1, ← List.append_assoc]
  exact ⟨rfl, rfl⟩

/-- The templates below a subdirectory are listed in the order of their names seen from there. -/
theorem listTemplates_run
    (hfound : desk.tree.find (searchDirectory desk.engine subdirectory) =
      .ok (location, .directory))
    (hrelative : (searchDirectory desk.engine subdirectory).relativeTo?
      desk.engine.settings.templatesDir = some relative) :
    listTemplates subdirectory desk =
      (.ok ((desk.templatesBelow (searchDirectory desk.engine subdirectory) location).map
        (qualified relative)), desk) := by
  have hanchor := (Path.relativeTo?_eq_some_iff.mp hrelative).2
  have hget : (get : Action Desk Desk) desk = (.ok desk, desk) := rfl
  rw [listTemplates, Action.bind_run, hget]
  dsimp only
  rw [Partials.filesWith_of_find hfound]
  change (List.mapM _ (List.filter _ (List.map (Partials.pathBelow _) _)) >>=
    fun names => pure (names.mergeSort Text.le) : Action Desk (List Text)) desk = _
  rw [filter_pathBelow, List.mapM_map, Action.bind_run, Action.mapM_run fun names hmem => ?_]
  · dsimp only
    rw [← mergeSort_qualified]
    rfl
  · rw [Function.comp_apply, relativeTo?_pathBelow hrelative,
      ← text_qualified hanchor (mem_templateNames_iff.mp hmem).1]
    rfl

/-- The name of a template below a directory is not empty and does not begin with a slash. -/
theorem exists_cons_of_mem_templatesBelow (hnames : desk.tree.IsNamed) {directory : Path}
    {name : Text} (h : name ∈ desk.templatesBelow directory location) :
    ∃ c t, name = c :: t ∧ c ≠ '/' := by
  obtain ⟨names, hmem, rfl⟩ := List.mem_map.mp (List.mem_mergeSort.mp h)
  obtain ⟨hsome, ⟨content, hentry⟩, -⟩ := mem_templateNames_iff.mp hmem
  obtain ⟨part, parts, rfl⟩ := List.exists_cons_of_ne_nil hsome
  obtain ⟨hpart, hslash⟩ := hnames _ hentry part (by simp)
  obtain ⟨c, t, htext, hc⟩ := Path.exists_cons_text_here hpart parts
  exact ⟨c, t, htext, fun heq => hslash (heq ▸ hc)⟩

/-! ### Names cut from the front -/

/-- Whether a subdirectory is spelled with at most one character more than its path has, so that no
more is cut off a name than the path and the slash behind it. -/
def SpelledClosely (relative : Path) (subdirectory : Text) : Prop :=
  relative.parts ≠ [] ∧ subdirectory.length ≤ relative.text.length + 1

/-- What is left of a name after a cut and after slashes is shorter. -/
theorem length_dropWhile_drop_lt {name : Text} (hname : name ≠ []) {count : Nat}
    (hcount : 0 < count) : ((name.drop count).dropWhile (· == '/')).length < name.length := by
  have hleft := (List.dropWhile_sublist (l := name.drop count) (· == '/')).length_le
  have hpos := List.length_pos_iff.mpr hname
  rw [List.length_drop] at hleft
  omega

/-- The name that is cut out is the name seen from the subdirectory exactly if the subdirectory is
spelled closely. -/
theorem nameBelow_qualified_iff {name : Text} (hsubdirectory : subdirectory ≠ [])
    (hname : name ≠ []) (hslash : ∀ t, name ≠ '/' :: t)
    (hlength : relative.parts ≠ [] → relative.text.length ≤ subdirectory.length) :
    nameBelow subdirectory (qualified relative name) = name ↔
      SpelledClosely relative subdirectory := by
  have hstart : name.dropWhile (· == '/') = name := by
    cases name with
    | nil => rfl
    | cons c t =>
      have hc : c ≠ '/' := by
        rintro rfl
        exact hslash t rfl
      rw [List.dropWhile_cons_of_neg (by simpa using hc)]
  have hpos := List.length_pos_iff.mpr hsubdirectory
  rw [nameBelow, if_neg (by simpa using hsubdirectory), SpelledClosely]
  by_cases hparts : relative.parts = []
  · rw [qualified, if_pos (by simpa using hparts)]
    have hshort := length_dropWhile_drop_lt hname hpos
    constructor
    · intro heq
      rw [heq] at hshort
      exact absurd hshort (Nat.lt_irrefl _)
    · exact fun h => absurd hparts h.1
  · have hle := hlength hparts
    rw [qualified, if_neg (by simpa using hparts), List.drop_append, List.drop_eq_nil_of_le hle,
      List.nil_append]
    obtain ⟨count, hcount⟩ := Nat.exists_eq_add_of_le hle
    rw [hcount, Nat.add_sub_cancel_left]
    match count with
    | 0 => simp [hparts, hstart]
    | 1 => simp [hparts, hstart]
    | more + 2 =>
      have hshort := length_dropWhile_drop_lt hname (Nat.succ_pos more)
      rw [List.drop_succ_cons]
      constructor
      · intro heq
        rw [heq] at hshort
        exact absurd hshort (Nat.lt_irrefl _)
      · intro h
        omega

/-! ### Rendering -/

/-- A template that is rendered into a file gives back the path of the file. -/
theorem eq_of_renderToFile {template output path : Path} {ctx : Context} {after : Desk}
    (h : renderToFile template output ctx desk = (.ok path, after)) : path = output := by
  obtain ⟨text, _, -, h⟩ := Action.bind_eq_ok h
  obtain ⟨_, _, -, h⟩ := Action.bind_eq_ok h
  exact (Except.ok.inj (Prod.mk.inj h).1).symm

/-- The files that are written are those of the listed templates that are not skipped, by the names
that are cut out. -/
theorem written_of_renderAll {output : Path} {ctx : Context} {skip templates : List Text}
    {after : Desk} {written : List Path}
    (hlist : listTemplates subdirectory desk = (.ok templates, desk))
    (hrun : renderAll subdirectory output ctx skip desk = (.ok written, after)) :
    written = ((templates.map (nameBelow subdirectory)).filter fun name =>
      !skip.any (Text.includes · name)).map fun name =>
        output.child (name.take (name.length - desk.engine.settings.extension.length)) := by
  obtain ⟨listed, between, hlisted, hrun⟩ := Action.bind_eq_ok hrun
  rw [hlist] at hlisted
  obtain ⟨hsame, rfl⟩ := Prod.mk.inj hlisted
  obtain rfl := Except.ok.inj hsame
  obtain ⟨current, _, hget, hrun⟩ := Action.bind_eq_ok hrun
  obtain ⟨hcurrent, rfl⟩ := Prod.mk.inj hget
  obtain rfl := Except.ok.inj hcurrent
  have hwritten := Action.eq_map_of_mapM (fun _ _ _ _ h => eq_of_renderToFile h) hrun
  rw [hwritten, List.filter_map, List.map_map]
  rfl

/-- **Rendering keeps the structure of a subdirectory that is spelled closely.** The templates below
a subdirectory are listed in the order of their names seen from there. The names that are cut out
for them are these names exactly if the subdirectory is spelled closely, and then the files that
are written are those of all templates that are not skipped, in this order, each by its name
without the extension. -/
theorem renderAll_subdirectory {output : Path} {ctx : Context} {skip : List Text} {after : Desk}
    {written : List Path} (hnames : desk.tree.IsNamed) (hsubdirectory : subdirectory ≠ [])
    (hfound : desk.tree.find (searchDirectory desk.engine subdirectory) =
      .ok (location, .directory))
    (hrelative : (searchDirectory desk.engine subdirectory).relativeTo?
      desk.engine.settings.templatesDir = some relative)
    (hrun : renderAll subdirectory output ctx skip desk = (.ok written, after)) :
    let templates := desk.templatesBelow (searchDirectory desk.engine subdirectory) location
    listTemplates subdirectory desk = (.ok (templates.map (qualified relative)), desk) ∧
      (∀ name ∈ templates, nameBelow subdirectory (qualified relative name) = name ↔
        SpelledClosely relative subdirectory) ∧
      (SpelledClosely relative subdirectory →
        written = (templates.filter fun name => !skip.any (Text.includes · name)).map fun name =>
          output.child (name.take (name.length - desk.engine.settings.extension.length))) := by
  intro templates
  have hlist := listTemplates_run hfound hrelative
  have hcut : ∀ name ∈ templates, nameBelow subdirectory (qualified relative name) = name ↔
      SpelledClosely relative subdirectory := by
    intro name hname
    obtain ⟨c, t, hcons, hc⟩ := exists_cons_of_mem_templatesBelow hnames hname
    have hchild : searchDirectory desk.engine subdirectory =
        desk.engine.settings.templatesDir.child subdirectory := by
      rw [searchDirectory, if_neg (by simpa using hsubdirectory)]
    rw [hchild] at hrelative
    refine nameBelow_qualified_iff hsubdirectory (by simp [hcons]) ?_
      (Path.length_text_le_of_relativeTo?_child hrelative)
    rintro r heq
    exact hc (List.cons.inj (hcons.symm.trans heq)).1
  refine ⟨hlist, hcut, fun hclosely => ?_⟩
  have hsame : templates.map (nameBelow subdirectory ∘ qualified relative) = templates :=
    (List.map_congr_left fun name hname => (hcut name hname).mpr hclosely).trans
      (List.map_id templates)
  rw [written_of_renderAll hlist hrun, List.map_map, hsame]

/-- If there is one template and it can be rendered then all are rendered. -/
theorem exists_renderAll_of_one {template : Text} (output : Path) (ctx : Context)
    (hlist : listTemplates subdirectory desk = (.ok [template], desk))
    (hok : (renderToFile (.ofText template) (output.child ((nameBelow subdirectory template).take
      ((nameBelow subdirectory template).length - desk.engine.settings.extension.length))) ctx
        desk).1.isOk) :
    ∃ written after, renderAll subdirectory output ctx [] desk = (.ok written, after) := by
  have hget : (get : Action Desk Desk) desk = (.ok desk, desk) := rfl
  have hone : renderAll subdirectory output ctx [] desk =
      (renderToFile (.ofText template) (output.child ((nameBelow subdirectory template).take
        ((nameBelow subdirectory template).length - desk.engine.settings.extension.length))) ctx >>=
          fun path => pure [path]) desk := by
    rw [renderAll, Action.bind_run, hlist]
    dsimp only
    rw [Action.bind_run, hget]
    rfl
  rw [hone, Action.bind_run]
  cases hrun : renderToFile (.ofText template) (output.child ((nameBelow subdirectory template).take
      ((nameBelow subdirectory template).length - desk.engine.settings.extension.length))) ctx
        desk with
  | mk result after =>
    rw [hrun] at hok
    cases result with
    | error fault => exact nomatch hok
    | ok path => exact ⟨_, _, rfl⟩

/-- A desk with one template, two directories below the directory of templates. -/
def nestedDesk : Desk where
  engine :=
    { settings := { templatesDir := .ofText "templates".toList }
      base := []
      partials := .inMemory
      cache := .empty 256 }
  tree :=
    { entries :=
        [(["templates".toList], .directory),
         (["templates".toList, "a".toList], .directory),
         (["templates".toList, "a".toList, "b".toList], .directory),
         (["templates".toList, "a".toList, "b".toList, "x.txt.hbs".toList],
          .file (.text "text".toList))]
      here := [] }
  messages := []

/-- The templates of this desk below the first directory. -/
theorem templatesBelow_nestedDesk {directory : Path}
    (h : directory = .ofText "templates/a".toList) :
    nestedDesk.templatesBelow directory ["templates".toList, "a".toList] =
      ["b/x.txt.hbs".toList] := by
  have hfiles : nestedDesk.tree.filesUnder ["templates".toList, "a".toList] =
      [(["b".toList, "x.txt.hbs".toList], .text "text".toList)] := by
    rw [FileTree.filesUnder]
    exact List.mergeSort_singleton _
  have hnames : nestedDesk.templateNames directory ["templates".toList, "a".toList] =
      [["b".toList, "x.txt.hbs".toList]] := by
    rw [templateNames, hfiles, h]
    decide +kernel
  rw [templatesBelow, hnames]
  exact List.mergeSort_singleton _

section

variable {spelling : Text} (hsome : spelling ≠ [])
  (hspelling : Path.ofText spelling = .ofText ['a'])

include hsome hspelling

/-- The path of the first directory in any spelling. -/
theorem searchDirectory_nestedDesk :
    searchDirectory nestedDesk.engine spelling = .ofText "templates/a".toList := by
  rw [searchDirectory, if_neg (by simpa using hsome), Path.child, hspelling]
  decide +kernel

/-- This directory is there. -/
theorem find_nestedDesk :
    nestedDesk.tree.find (searchDirectory nestedDesk.engine spelling) =
      .ok (["templates".toList, "a".toList], .directory) := by
  rw [searchDirectory_nestedDesk hsome hspelling]
  rfl

/-- It is below the directory of templates. -/
theorem relativeTo?_nestedDesk :
    (searchDirectory nestedDesk.engine spelling).relativeTo?
      nestedDesk.engine.settings.templatesDir = some ⟨.here, [['a']]⟩ := by
  have hrooted : (Path.ofText spelling).isAbsolute = false := by
    rw [hspelling]
    decide +kernel
  rw [searchDirectory, if_neg (by simpa using hsome), Path.relativeTo?_child hrooted, hspelling]
  decide +kernel

/-- Its template is listed. -/
theorem listTemplates_nestedDesk :
    listTemplates spelling nestedDesk = (.ok ["a/b/x.txt.hbs".toList], nestedDesk) := by
  rw [listTemplates_run (find_nestedDesk hsome hspelling) (relativeTo?_nestedDesk hsome hspelling),
    templatesBelow_nestedDesk (searchDirectory_nestedDesk hsome hspelling)]
  rfl

end

/-- With a slash behind the name of the directory the structure below it is kept. -/
theorem renderAll_subdirectory_with_slash :
    ∃ after, renderAll "a/".toList (.ofText "out".toList) [] [] nestedDesk =
      (.ok [.ofText "out/b/x.txt".toList], after) := by
  have hsome : "a/".toList ≠ [] := by decide
  have hspelling : Path.ofText "a/".toList = .ofText ['a'] := by decide +kernel
  have hnamed : nestedDesk.tree.IsNamed := by decide +kernel
  obtain ⟨written, after, hrun⟩ := exists_renderAll_of_one (.ofText "out".toList) []
    (listTemplates_nestedDesk hsome hspelling) (by decide +kernel)
  have hwritten := (renderAll_subdirectory hnamed hsome (find_nestedDesk hsome hspelling)
    (relativeTo?_nestedDesk hsome hspelling) hrun).2.2 ⟨by simp, by decide⟩
  rw [templatesBelow_nestedDesk (searchDirectory_nestedDesk hsome hspelling)] at hwritten
  have hpath : written = [.ofText "out/b/x.txt".toList] := by
    rw [hwritten]
    decide +kernel
  exact ⟨after, hpath ▸ hrun⟩

/-- With a point in front of the name of the directory the directory below it is lost. -/
theorem renderAll_loses_directory :
    let output := Path.ofText "out".toList
    ∃ written after, renderAll "./a".toList output [] [] nestedDesk = (.ok written, after) ∧
      written = [.ofText "out/x.txt".toList] ∧
      written ≠ (nestedDesk.templatesBelow (searchDirectory nestedDesk.engine "./a".toList)
        ["templates".toList, "a".toList]).map fun name =>
          output.child (name.take (name.length - nestedDesk.engine.settings.extension.length)) := by
  intro output
  have hsome : "./a".toList ≠ [] := by decide
  have hspelling : Path.ofText "./a".toList = .ofText ['a'] := by decide +kernel
  have hlist := listTemplates_nestedDesk hsome hspelling
  obtain ⟨written, after, hrun⟩ := exists_renderAll_of_one output [] hlist (by decide +kernel)
  have hpath : written = [.ofText "out/x.txt".toList] := by
    rw [written_of_renderAll hlist hrun]
    decide +kernel
  refine ⟨written, after, hrun, hpath, ?_⟩
  rw [templatesBelow_nestedDesk (searchDirectory_nestedDesk hsome hspelling), hpath]
  decide +kernel

end Desk

end Stencil
