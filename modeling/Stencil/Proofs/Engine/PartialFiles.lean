import Stencil.Proofs.Engine.LookedUp
import Stencil.Proofs.Engine.RenderAll
import Stencil.Proofs.FileTree.Writes

/-!
# The files of partials

A store of partials that was built for a directory looks for a partial in one file, which the
directory, the name and the extension tell, whether it knows the name or not; no use of the store
changes that. So what an engine renders is the same on two trees of files in which the partials in
reach of a template have the same files.
-/

namespace Stencil

/-! ### Names of partials -/

/-- A text is put together again from what is left without an ending and the ending. -/
theorem Partials.withoutEnding_append {ending s : Text} (h : Text.endsWith ending s) :
    withoutEnding ending s ++ ending = s := by
  obtain ⟨start, rfl⟩ := List.isSuffixOf_iff_suffix.mp h
  rw [withoutEnding, if_pos h]
  simp

/-- The text of a path that starts from the directory at hand ends in its last part. -/
theorem Path.suffix_text_here (parts : List Text) (last : Text) :
    last <:+ text ⟨.here, parts ++ [last]⟩ := by
  rw [text_here (by simp)]
  by_cases hparts : parts = []
  · rw [hparts, List.nil_append, List.intercalate_singleton]
  · rw [intercalate_append hparts (List.cons_ne_nil _ _), List.intercalate_singleton]
    exact (List.suffix_cons _ _).trans (List.suffix_append _ _)

/-- A path by names such as files have is as one that was read from a text. -/
theorem FileTree.isNormal_of_isName {anchor : Anchor} {names : List Text}
    (h : ∀ name ∈ names, IsName name) : Path.IsNormal ⟨anchor, names⟩ := fun name hname =>
  ⟨(h name hname).1, (h name hname).2.1, (h name hname).2.2.2⟩

/-- What is found where a path is looked for is what it leads to. -/
theorem FileTree.find_of_find? {tree : FileTree} {path : Path} {found : Location × Entry}
    (h : tree.find? path = .ok (some found)) : tree.find path = .ok found := by
  unfold find? at h
  split at h
  · next found' hfind =>
    rw [hfind]
    exact congrArg Except.ok (Option.some.inj (Except.ok.inj h))
  · contradiction
  · exact nomatch h

/-- The files with an extension below a directory end in the extension, and are entries of the
tree. -/
theorem Partials.exists_of_mem_filesWith {tree : FileTree} {directory : Path} {extension : Text}
    {files : List (List Text)} (h : filesWith tree directory extension = .ok files)
    {names : List Text} (hnames : names ∈ files) :
    ∃ first last, names = first ++ [last] ∧ Text.endsWith extension last ∧
      ∃ location content, tree.find directory = .ok (location, .directory) ∧
        (location ++ names, Entry.file content) ∈ tree.entries := by
  rw [filesWith, FileTree.filesBelow] at h
  cases hfound : tree.find? directory with
  | error fault =>
    rw [hfound] at h
    contradiction
  | ok found =>
    rw [hfound] at h
    rcases found with _ | ⟨location, _ | content⟩
    · obtain rfl := Except.ok.inj h
      exact absurd hnames List.not_mem_nil
    · obtain rfl := Except.ok.inj h
      obtain ⟨hmem, hends⟩ := List.mem_filter.mp hnames
      obtain ⟨⟨names, content⟩, hunder, rfl⟩ := List.mem_map.mp hmem
      obtain ⟨hsome, hentry⟩ := FileTree.mem_filesUnder_iff.mp hunder
      obtain ⟨first, last, rfl⟩ := (List.eq_nil_or_concat names).resolve_left hsome
      refine ⟨first, last, List.concat_eq_append, ?_, location, content,
        FileTree.find_of_find? hfound, hentry⟩
      simpa using hends
    · obtain rfl := Except.ok.inj h
      exact absurd hnames List.not_mem_nil

/-- What is left of the path of a file with an extension leads to the file, with the extension put
behind it again. -/
theorem Partials.child_withoutEnding {tree : FileTree} {directory : Path} {extension : Text}
    {files : List (List Text)} {names : List Text}
    (hsystem : ∀ e ∈ tree.entries, ∀ name ∈ e.1, FileTree.IsName name)
    (hfiles : filesWith tree directory extension = .ok files) (hnames : names ∈ files) :
    directory.child (withoutEnding extension (Path.text ⟨.here, names⟩) ++ extension) =
      pathBelow directory names := by
  obtain ⟨first, last, rfl, hends, location, content, -, hplace⟩ :=
    exists_of_mem_filesWith hfiles hnames
  have hnormal : Path.IsNormal ⟨.here, first ++ [last]⟩ :=
    FileTree.isNormal_of_isName fun name hname =>
      hsystem _ hplace name (List.mem_append_right _ hname)
  have htext : Text.endsWith extension (Path.text ⟨.here, first ++ [last]⟩) :=
    List.isSuffixOf_iff_suffix.mpr
      ((List.isSuffixOf_iff_suffix.mp hends).trans (Path.suffix_text_here first last))
  rw [withoutEnding_append htext, Path.child, Path.ofText_text hnormal, pathBelow]

/-- The file in which an engine with certain settings looks for a partial. -/
def Engine.Settings.partialPath (s : Settings) (name : Text) : Path :=
  s.partialsDir.child (name ++ s.extension)

/-- A store that was built for a directory has kept no source, and looks for a partial in the file
that has its name and the extension. -/
theorem Partials.pathOf?_of_ofDirectory {tree : FileTree} {directory : Path} {extension : Text}
    {store : Partials} (hnames : ∀ e ∈ tree.entries, ∀ name ∈ e.1, FileTree.IsName name)
    (h : ofDirectory tree directory extension = .ok store) :
    store.sources = [] ∧
      ∀ name, store.pathOf? name = some (directory.child (name ++ extension)) := by
  rw [ofDirectory, discover] at h
  cases hfiles : filesWith tree directory extension with
  | error fault =>
    rw [hfiles] at h
    contradiction
  | ok files =>
    rw [hfiles] at h
    obtain rfl := Except.ok.inj h
    refine ⟨rfl, fun name => ?_⟩
    unfold pathOf?
    split
    · next path hpath =>
      rcases Mapping.get?_merge_cases hpath with hmem | ⟨-, hbefore⟩
      · obtain ⟨names, hfile, hentry⟩ := List.mem_map.mp hmem
        obtain ⟨rfl, rfl⟩ := Prod.mk.inj hentry
        rw [child_withoutEnding hnames hfiles hfile]
      · contradiction
    · rfl

/-! ### Sources in files -/

/-- The source for a name is the same in two trees in which its file is the same. -/
theorem Partials.source_congr {p : Partials} {t t' : FileTree} {name : Text}
    (h : ∀ path, p.pathOf? name = some path → t'.source path = t.source path) :
    p.source t' name = p.source t name := by
  rw [source_eq, source_eq]
  split
  · rfl
  · rfl
  · next path _ hpath => exact h path hpath

/-- A file has the same source in trees that agree along its path. -/
theorem FileTree.source_congr {t t' : FileTree} {path : Path} (hhere : t'.here = t.here)
    (hway : ∀ l ∈ t.way path, t'.at? l = t.at? l) : t'.source path = t.source path := by
  rw [source, source, hasFile_congr hhere hway, readText_congr hhere hway]

/-- No use of an engine changes the files in which it looks for partials. -/
theorem Desk.keptInUse_pathOf? : KeptInUse fun desk => desk.engine.partials.pathOf? where
  messages _ _ := rfl
  compile _ _ := rfl
  loadSource name desk := by
    rw [loadSource_run]
    split
    · next found partials hload => exact Partials.pathOf?_load hload
    · rfl

/-- No calls change the files in which an engine looks for partials. -/
@[simp] theorem Call.pathOf?_runAll (calls : List Call) (desk : Desk) :
    (runAll calls desk).engine.partials.pathOf? = desk.engine.partials.pathOf? := by
  induction calls generalizing desk with
  | nil => rfl
  | cons call rest ih =>
    refine (ih (call.run desk)).trans ?_
    cases call with
    | render template ctx => exact Desk.keptInUse_pathOf?.render template ctx desk
    | process template ctx => exact Desk.keptInUse_pathOf?.process template ctx desk
    | processFile path ctx => exact Desk.keptInUse_pathOf?.processFile path ctx desk
    | compile source => rfl
    | loadSource name => exact Desk.keptInUse_pathOf?.loadSource name desk
    | hasTemplate path => rfl
    | extendBase ctx => rfl

/-- What a new engine reads as the source of a partial: what is in the file with the name and the
extension. -/
theorem Engine.source_of_ofSettings {settings : Settings} {base : Context} {tree : FileTree}
    {engine : Engine} (hnames : ∀ e ∈ tree.entries, ∀ name ∈ e.1, FileTree.IsName name)
    (h : ofSettings settings base tree = .ok engine) (name : Text) :
    engine.partials.pathOf? name = some (settings.partialPath name) ∧
      engine.partials.source tree name = tree.source (settings.partialPath name) := by
  have hbuild : build settings base tree none = .ok engine := h
  obtain ⟨store, hstore, -, rfl⟩ := build_eq_ok.mp hbuild
  obtain ⟨hsources, hpath⟩ := Partials.pathOf?_of_ofDirectory hnames hstore
  refine ⟨hpath name, ?_⟩
  rw [Partials.source_eq, hsources, hpath name]
  rfl

/-! ### Templates and the partials in their reach -/

namespace Template

variable {sources others : Sources}

/-- Names that hold those of some nodes, and with each name those of its source, hold all names in
reach. -/
theorem InReach.mem_of_closed {nodes reached : List Node} (h : InReach sources nodes reached)
    {names : List Text} (hnodes : ∀ name ∈ partialNamesAll nodes, name ∈ names)
    (hclosed : ∀ name ∈ names, ∀ source, sources name = .ok (some source) →
      ∀ other ∈ partialNamesAll (parse source).nodes, other ∈ names) :
    ∀ name ∈ partialNamesAll reached, name ∈ names := by
  induction h with
  | refl => exact hnodes
  | step hname hsource _ ih => exact ih (hclosed _ (hnodes _ hname) _ hsource)

/-- Trees are rendered to the same result from sources that agree on the partials in reach. -/
theorem result_renderTree_congr (depth : Nat) (stack : List Text) (nodes : List Node)
    (h : ∀ reached, InReach sources nodes reached → ∀ name ∈ partialNamesAll reached,
      others name = sources name) (ctx : Context) :
    result (renderTree (loadFrom others) depth stack nodes ctx) =
      result (renderTree (loadFrom sources) depth stack nodes ctx) := by
  induction depth generalizing stack nodes ctx with
  | zero => rfl
  | succ depth ih =>
    obtain ⟨embed, hembed, hrender⟩ := exists_renderTree_succ sources depth stack
    obtain ⟨embed', hembed', hrender'⟩ := exists_renderTree_succ others depth stack
    rw [hrender, hrender']
    refine compatible_eq.renderNodes embed' embed nodes (fun name hname ctx => ?_) ctx
    rw [hembed, hembed', embedFrom, embedFrom, h nodes (.refl nodes) name hname]
    cases hsource : sources name with
    | error fault => rfl
    | ok found =>
      cases found with
      | none => rfl
      | some source =>
        have hinner := ih (stack ++ [name]) (parse source).nodes
          (fun reached hreached => h reached (.step hname hsource hreached)) ctx
        change (result _ >>= _) = (result _ >>= _)
        rw [hinner]

/-- Templates have the same outcome from sources that agree on the partials in reach. -/
theorem outcome_congr (depth : Nat) (template : Text)
    (h : ∀ reached, InReach sources (parse template).nodes reached →
      ∀ name ∈ partialNamesAll reached, others name = sources name) (ctx : Context) :
    outcome others depth template ctx = outcome sources depth template ctx := by
  rw [outcome_eq, outcome_eq, result_renderTree_congr depth [] _ h]

end Template

end Stencil
