import Stencil.Proofs.Engine.PartialFiles
import Mathlib.Data.List.Nodup

/-!
# Listed templates

A template is listed by the names that lead to its file from the directory of templates. The file it
is rendered into is reached by the same names, the last one without the extension. So different
templates are rendered into different files, as long as something that can be a name is left of the
last name.
-/

namespace Stencil

/-- The text of parts is that of the parts with something taken from the end of the last one, and
what was taken. -/
theorem Path.intercalate_concat_append (first : List Text) (stem ending : Text) :
    List.intercalate ['/'] (first ++ [stem ++ ending]) =
      List.intercalate ['/'] (first ++ [stem]) ++ ending := by
  by_cases hfirst : first = []
  · rw [hfirst, List.nil_append, List.nil_append, List.intercalate_singleton,
      List.intercalate_singleton]
  · rw [intercalate_append hfirst (List.cons_ne_nil _ _),
      intercalate_append hfirst (List.cons_ne_nil _ _), List.intercalate_singleton,
      List.intercalate_singleton, List.append_assoc]
    rfl

/-- The files below a location are what is kept of the entries, each behind the location with the
names that it is listed by. -/
theorem FileTree.filesUnder_eq (t : FileTree) (location : Location) :
    ∃ file? : Location × Entry → Option (List Text × Content),
      t.filesUnder location =
        (t.entries.filterMap file?).mergeSort (fun a b => Path.partsLe a.1 b.1) ∧
      ∀ e b, file? e = some b → e.1 = location ++ b.1 := by
  refine ⟨_, rfl, ?_⟩
  rintro ⟨place, _ | content⟩ b hb
  · contradiction
  · dsimp only at hb
    split at hb
    · contradiction
    · next after _ hafter =>
      obtain rfl := Option.some.inj hb
      exact (List.isPrefixOf?_eq_some_iff_append_eq.mp hafter).symm
    · contradiction

/-- The files below a location have different names. -/
theorem FileTree.IsFileSystem.nodup_filesUnder {t : FileTree} (h : t.IsFileSystem)
    (location : Location) : ((t.filesUnder location).map (·.1)).Nodup := by
  obtain ⟨file?, hfiles, hplace⟩ := filesUnder_eq t location
  rw [hfiles, ((List.mergeSort_perm _ _).map _).nodup_iff, List.Nodup, List.pairwise_map,
    List.pairwise_filterMap]
  have hplaces : t.entries.Pairwise fun e e' => e.1 ≠ e'.1 := List.pairwise_map.mp h.nodup
  refine hplaces.imp fun {e e'} hne b hb b' hb' hsame => hne ?_
  rw [hplace e b hb, hplace e' b' hb', hsame]

/-- A path leads to a directory, or a name on the way is too long to be looked for, or neither. -/
theorem FileTree.hasDirectory_cases (t : FileTree) (path : Path) :
    (∃ location, t.find path = .ok (location, .directory) ∧ t.hasDirectory path = .ok true) ∨
      (∃ long, t.find path = .error (.nameTooLong long) ∧
        t.hasDirectory path = .error (.nameTooLong long)) ∨
      (∀ location, t.find path ≠ .ok (location, .directory)) ∧
        (∀ long, t.find path ≠ .error (.nameTooLong long)) ∧
        t.hasDirectory path = .ok false := by
  rw [hasDirectory, find?]
  cases t.find path with
  | ok found =>
    obtain ⟨location, entry⟩ := found
    cases entry with
    | directory => exact Or.inl ⟨location, rfl, rfl⟩
    | file content => exact Or.inr (Or.inr ⟨by simp, by simp, rfl⟩)
  | error fault =>
    cases fault with
    | nameTooLong long => exact Or.inr (Or.inl ⟨long, rfl, rfl⟩)
    | _ => exact Or.inr (Or.inr ⟨by simp, by simp, rfl⟩)

/-- Where no directory is, there are no files with an extension. -/
theorem Partials.filesWith_eq_nil {tree : FileTree} {directory : Path}
    (h : tree.hasDirectory directory = .ok false) (extension : Text) :
    filesWith tree directory extension = .ok [] := by
  rw [FileTree.hasDirectory] at h
  rw [filesWith, FileTree.filesBelow]
  cases hfound : tree.find? directory with
  | error fault =>
    rw [hfound] at h
    contradiction
  | ok found =>
    rw [hfound] at h
    rcases found with _ | ⟨location, _ | content⟩
    · rfl
    · exact absurd (Except.ok.inj h) Bool.noConfusion
    · rfl

namespace Desk

/-- The name of a template without the extension. -/
def outputName (extension template : Text) : Text :=
  template.take (template.length - extension.length)

/-- The last part of the name of a template, without the extension. -/
def outputStem (extension template : Text) : Text :=
  ((outputName extension template).splitOn '/').getLastD []

/-- A template with the place of the directory of templates, the names of the directories that lead
to it from there, and what is left of its own name without the extension. -/
structure Listed (desk : Desk) (template : Text) (root : Location) (first : List Text)
    (stem : Text) : Prop where
  found : desk.tree.find desk.engine.settings.templatesDir = .ok (root, .directory)
  text : template = Path.text ⟨.here, first ++ [stem ++ desk.engine.settings.extension]⟩
  names : ∀ name ∈ first ++ [stem ++ desk.engine.settings.extension], FileTree.IsName name
  isName : FileTree.IsName stem
  file : ∃ content, desk.tree.at? (root ++ (first ++ [stem ++ desk.engine.settings.extension])) =
    some (.file content)

variable {desk : Desk} {template : Text} {root : Location} {first : List Text} {stem : Text}

/-- The templates below a directory, if it is one. -/
def listedBelow (desk : Desk) (directory : Path) : List Text :=
  match desk.tree.find directory with
  | .ok (location, .directory) => desk.templatesBelow directory location
  | _ => []

/-- What is listed is the templates below the subdirectory, by their names seen from the directory of
templates. It is a fault if a name on the way to the subdirectory is too long. -/
theorem listTemplates_eq {subdirectory : Text} {relative : Path}
    (hrelative : (searchDirectory desk.engine subdirectory).relativeTo?
      desk.engine.settings.templatesDir = some relative) :
    listTemplates subdirectory desk =
      ((desk.tree.hasDirectory (searchDirectory desk.engine subdirectory)).map fun _ =>
        (desk.listedBelow (searchDirectory desk.engine subdirectory)).map (qualified relative),
        desk) := by
  have hget : (get : Action Desk Desk) desk = (.ok desk, desk) := rfl
  rcases desk.tree.hasDirectory_cases (searchDirectory desk.engine subdirectory) with
    ⟨location, hfound, hrun⟩ | ⟨long, hfound, hrun⟩ | ⟨hdirectory, hlong, hrun⟩
  · rw [listTemplates_run hfound hrelative, hrun, listedBelow, hfound]
    rfl
  · have hfiles : Partials.filesWith desk.tree (searchDirectory desk.engine subdirectory)
        desk.engine.settings.extension = .error (.nameTooLong long) := by
      rw [Partials.filesWith, FileTree.filesBelow, FileTree.find?, hfound]
      rfl
    rw [listTemplates, Action.bind_run, hget]
    dsimp only
    rw [Action.lift_bind_run, hfiles, hrun]
    rfl
  · have hnone : desk.listedBelow (searchDirectory desk.engine subdirectory) = [] := by
      unfold listedBelow
      split
      · next location hfound => exact absurd hfound (hdirectory location)
      · rfl
    rw [listTemplates, Action.bind_run, hget]
    dsimp only
    rw [Action.lift_bind_run, Partials.filesWith_eq_nil hrun, hrun, hnone]
    change (Except.ok (([] : List Text).mergeSort Text.le), desk) = _
    rw [List.mergeSort_nil]
    rfl

/-- The whole directory of templates is listed. -/
theorem listTemplates_nil (desk : Desk) :
    listTemplates [] desk =
      ((desk.tree.hasDirectory desk.engine.settings.templatesDir).map fun _ =>
        desk.listedBelow desk.engine.settings.templatesDir, desk) := by
  have hself : qualified (Path.ofText []) = id := rfl
  rw [listTemplates_eq (relativeTo?_searchDirectory _ rfl), hself]
  simp only [List.map_id]
  rfl

/-- The templates of a directory that is there are listed. -/
theorem listTemplates_nil_run
    (hroot : desk.tree.find desk.engine.settings.templatesDir = .ok (root, .directory)) :
    listTemplates [] desk =
      (.ok (desk.templatesBelow desk.engine.settings.templatesDir root), desk) := by
  have hdirectory : desk.tree.hasDirectory desk.engine.settings.templatesDir = .ok true := by
    rw [FileTree.hasDirectory, FileTree.find?, hroot]
    rfl
  rw [listTemplates_nil, hdirectory, listedBelow, hroot]
  rfl

/-- To list templates changes nothing. -/
theorem listTemplates_nil_eq {templates : List Text}
    (hlist : (listTemplates [] desk).1 = .ok templates) :
    listTemplates [] desk = (.ok templates, desk) := by
  rw [listTemplates_nil] at hlist ⊢
  rw [← hlist]

/-- What is listed is the templates below the directory of templates. -/
theorem exists_templatesBelow_of_listTemplates {templates : List Text}
    (hlist : (listTemplates [] desk).1 = .ok templates) (hmem : template ∈ templates) :
    ∃ root, desk.tree.find desk.engine.settings.templatesDir = .ok (root, .directory) ∧
      templates = desk.templatesBelow desk.engine.settings.templatesDir root := by
  rw [listTemplates_nil] at hlist
  have hlisted : templates = desk.listedBelow desk.engine.settings.templatesDir := by
    cases hdirectory : desk.tree.hasDirectory desk.engine.settings.templatesDir with
    | error fault =>
      rw [hdirectory] at hlist
      contradiction
    | ok present =>
      rw [hdirectory] at hlist
      exact (Except.ok.inj hlist).symm
  rw [hlisted] at hmem ⊢
  unfold listedBelow at hmem ⊢
  split at hmem
  · next root hroot => exact ⟨root, hroot, rfl⟩
  · exact absurd hmem List.not_mem_nil

/-- No template stands twice among those below a directory. -/
theorem nodup_templatesBelow (hsystem : desk.tree.IsFileSystem) (directory : Path)
    (location : Location) : (desk.templatesBelow directory location).Nodup := by
  rw [templatesBelow, (List.mergeSort_perm _ _).nodup_iff]
  have hnames : (desk.templateNames directory location).Nodup :=
    (hsystem.nodup_filesUnder location).filter _
  refine hnames.map_on fun names hmem names' hmem' hsame => ?_
  have hback {names : List Text} (hmem : names ∈ desk.templateNames directory location) :
      Path.ofText (Path.text ⟨.here, names⟩) = ⟨.here, names⟩ := by
    obtain ⟨-, ⟨content, hentry⟩, -⟩ := mem_templateNames_iff.mp hmem
    exact Path.ofText_text (FileTree.isNormal_of_isName fun name hname =>
      hsystem.names _ hentry name (List.mem_append_right _ hname))
  have hpaths := congrArg Path.ofText hsame
  rw [hback hmem, hback hmem'] at hpaths
  exact (Path.mk.inj hpaths).2

/-- No template is listed twice. -/
theorem nodup_of_listTemplates (hsystem : desk.tree.IsFileSystem) {templates : List Text}
    (hlist : (listTemplates [] desk).1 = .ok templates) : templates.Nodup := by
  cases hcases : templates with
  | nil => exact List.nodup_nil
  | cons template rest =>
    obtain ⟨root, -, htemplates⟩ :=
      exists_templatesBelow_of_listTemplates hlist (hcases ▸ List.mem_cons_self)
    rw [← hcases, htemplates]
    exact nodup_templatesBelow hsystem _ root

/-- The name of a template without the extension has the same parts, but for the end of the last
one. -/
theorem outputName_text (extension : Text) (first : List Text) (stem : Text) :
    outputName extension (Path.text ⟨.here, first ++ [stem ++ extension]⟩) =
      List.intercalate ['/'] (first ++ [stem]) := by
  rw [outputName, Path.text_here (by simp), Path.intercalate_concat_append]
  simp

/-- The last part of the name of a template without the extension. -/
theorem outputStem_text (extension : Text) {first : List Text} {stem : Text}
    (hfirst : ∀ name ∈ first, '/' ∉ name) (hstem : '/' ∉ stem) :
    outputStem extension (Path.text ⟨.here, first ++ [stem ++ extension]⟩) = stem := by
  rw [outputStem, outputName_text, List.splitOn_intercalate]
  · simp
  · rw [List.forall_mem_append]
    exact ⟨hfirst, List.forall_mem_singleton.mpr hstem⟩
  · simp

/-- Every listed template has a place and names, if something that can be a name is left of its last
part. -/
theorem exists_listed (hsystem : desk.tree.IsFileSystem) {templates : List Text}
    (hlist : (listTemplates [] desk).1 = .ok templates)
    (hstems : ∀ template ∈ templates, outputStem desk.engine.settings.extension template ∉
      ["".toList, ".".toList, "..".toList]) :
    ∀ template ∈ templates, ∃ root first stem, desk.Listed template root first stem := by
  intro template hmem
  obtain ⟨root, hroot, htemplates⟩ := exists_templatesBelow_of_listTemplates hlist hmem
  have hbelow := htemplates ▸ hmem
  obtain ⟨names, hnames, htext⟩ := List.mem_map.mp (List.mem_mergeSort.mp hbelow)
  obtain ⟨hsome, ⟨content, hentry⟩, hends, -⟩ := mem_templateNames_iff.mp hnames
  obtain ⟨first, last, rfl⟩ := (List.eq_nil_or_concat names).resolve_left hsome
  rw [List.concat_eq_append] at htext hentry hends
  rw [List.getLast?_concat, Option.any_some] at hends
  obtain ⟨stem, rfl⟩ := List.isSuffixOf_iff_suffix.mp hends
  have hisName : ∀ name ∈ first ++ [stem ++ desk.engine.settings.extension],
      FileTree.IsName name := fun name hname =>
    hsystem.names _ hentry name (List.mem_append_right _ hname)
  refine ⟨root, first, stem, hroot, htext.symm, hisName, ?_, content, ?_⟩
  · have hlast := hisName _ (List.mem_append_right first List.mem_cons_self)
    have hslash : '/' ∉ stem := fun hin => hlast.2.2.2 (List.mem_append_left _ hin)
    have hproper := hstems template hmem
    rw [← htext, outputStem_text _
      (fun name hname => (hisName name (List.mem_append_left _ hname)).2.2.2) hslash] at hproper
    simp only [List.mem_cons, List.not_mem_nil, or_false, not_or] at hproper
    exact ⟨hproper.1, hproper.2.1, hproper.2.2, hslash⟩
  · exact hsystem.at?_of_mem hentry (by simp)

namespace Listed

variable (h : desk.Listed template root first stem)

include h

/-- The name of a template is read as the path that it is the text of. -/
theorem ofText_eq :
    Path.ofText template = ⟨.here, first ++ [stem ++ desk.engine.settings.extension]⟩ := by
  rw [h.text, Path.ofText_text (FileTree.isNormal_of_isName h.names)]

/-- The names of the file that a template is rendered into. -/
theorem isName_output : ∀ name ∈ first ++ [stem], FileTree.IsName name := by
  intro name hname
  rcases List.mem_append.mp hname with hname | hname
  · exact h.names name (List.mem_append_left _ hname)
  · rw [List.mem_singleton.mp hname]
    exact h.isName

/-- The file that a template is rendered into, seen from a directory. -/
theorem child_outputName (output : Path) :
    output.child (outputName desk.engine.settings.extension template) =
      ⟨output.anchor, output.parts ++ (first ++ [stem])⟩ := by
  have hnormal : Path.IsNormal ⟨.here, first ++ [stem]⟩ :=
    FileTree.isNormal_of_isName h.isName_output
  have hread : Path.ofText (outputName desk.engine.settings.extension template) =
      ⟨.here, first ++ [stem]⟩ := by
    rw [h.text, outputName_text, ← Path.text_here (by simp), Path.ofText_text hnormal]
  rw [Path.child, hread]
  rfl

/-- The place of the file that a template is rendered into. -/
theorem place_output (tree : FileTree) (output : Path) :
    tree.place (output.child (outputName desk.engine.settings.extension template)) =
      tree.place output ++ (first ++ [stem]) := by
  rw [h.child_outputName]
  exact FileTree.place_append (fun name hname => (h.isName_output name hname).2.2.1) tree output

/-- The place of the directory of templates. -/
theorem root_eq : root = desk.tree.place desk.engine.settings.templatesDir :=
  FileTree.eq_place_of_locate (FileTree.find_eq_ok_iff.mp h.found).1

/-- Files below a place that is apart from the directory of templates leave all as it is to which
the path of a template comes. -/
theorem spares (htree : desk.tree.IsTree) {base : Location} {paths : List Path}
    (hapart : FileTree.Apart base (desk.tree.place desk.engine.settings.templatesDir))
    (hpaths : ∀ path ∈ paths, base <+: desk.tree.place path) :
    ∀ l ∈ desk.tree.way (desk.engine.templatePath (.ofText template)),
      desk.tree.Spares paths l := by
  intro l hl
  obtain ⟨hlocate, hdirectory⟩ := FileTree.find_eq_ok_iff.mp h.found
  have hpath : desk.engine.templatePath (.ofText template) =
      ⟨desk.engine.settings.templatesDir.anchor, desk.engine.settings.templatesDir.parts ++
        (first ++ [stem ++ desk.engine.settings.extension])⟩ := by
    rw [Engine.templatePath, h.ofText_eq]
    rfl
  rw [hpath] at hl
  rcases FileTree.mem_way_append (fun name hname => (h.names name hname).2.2.1) hl with
    habove | ⟨above, habove, rfl⟩
  · exact Or.inl (FileTree.at?_of_mem_way hlocate hdirectory habove)
  · refine FileTree.spares_of_apart hapart hpaths (List.prefix_append _ _) fun hnone => ?_
    obtain ⟨content, hfile⟩ := h.file
    obtain ⟨rest, hrest⟩ := habove
    rw [← hrest, ← List.append_assoc, h.root_eq] at hfile
    by_cases hempty : rest = []
    · rw [hempty, List.append_nil, hnone] at hfile
      contradiction
    · rw [htree.at?_append_eq_none (by rw [hnone]; exact nofun) hempty] at hfile
      contradiction

end Listed

/-- Different templates are rendered into files at different places. -/
theorem nodup_place_output (hsystem : desk.tree.IsFileSystem) {templates : List Text}
    (hlist : (listTemplates [] desk).1 = .ok templates)
    (hstems : ∀ template ∈ templates, outputStem desk.engine.settings.extension template ∉
      ["".toList, ".".toList, "..".toList]) (output : Path) :
    (templates.map fun template => desk.tree.place
      (output.child (outputName desk.engine.settings.extension template))).Nodup := by
  refine (nodup_of_listTemplates hsystem hlist).map_on fun template hmem other hother hsame => ?_
  obtain ⟨root, first, stem, hone⟩ := exists_listed hsystem hlist hstems template hmem
  obtain ⟨root', first', stem', htwo⟩ := exists_listed hsystem hlist hstems other hother
  rw [hone.place_output, htwo.place_output] at hsame
  obtain ⟨rfl, hlast⟩ := List.append_inj' (List.append_cancel_left hsame) rfl
  rw [hone.text, htwo.text, (List.cons.inj hlast).1]

/-- Where templates are rendered into a directory that is apart from theirs, all is left as it is to
which the path of a template comes. -/
theorem spares_output (hsystem : desk.tree.IsFileSystem) {templates : List Text}
    (hlist : (listTemplates [] desk).1 = .ok templates)
    (hstems : ∀ template ∈ templates, outputStem desk.engine.settings.extension template ∉
      ["".toList, ".".toList, "..".toList]) {output : Path}
    (hapart : FileTree.Apart (desk.tree.place output)
      (desk.tree.place desk.engine.settings.templatesDir))
    {kept : List Text} (hkept : kept ⊆ templates) (hmem : template ∈ templates) :
    ∀ l ∈ desk.tree.way (desk.engine.templatePath (.ofText template)),
      desk.tree.Spares (kept.map fun template =>
        output.child (outputName desk.engine.settings.extension template)) l := by
  have hlisted := exists_listed hsystem hlist hstems
  obtain ⟨root, first, stem, htemplate⟩ := hlisted template hmem
  refine htemplate.spares hsystem.tree hapart ?_
  rw [List.forall_mem_map]
  intro other hother
  obtain ⟨root', first', stem', hlisted'⟩ := hlisted other (hkept hother)
  rw [hlisted'.place_output]
  exact List.prefix_append _ _

end Desk

end Stencil
