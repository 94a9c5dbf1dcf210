import Stencil.Proofs.Engine.Listing
import Stencil.Proofs.Engine.WriteOnce

/-!
# Names of partials and their files

A partial that is there when a store is built is named for its file: by the path of the file, less
the extension. A partial that came later is looked for in the file that its name and the extension
tell. The two go together, so it makes no difference to the sources that a store gives whether the
files were there when it was built.
-/

namespace Stencil

namespace Partials

/-! ### Stores that give the same sources -/

/-- Whether a request is about sources: it asks for one or hands one in. -/
def Request.isAboutSource : Request → Bool
  | load _ => true
  | register _ _ => true
  | names => false
  | knows _ => false
  | count => false

/-- The part of a past that is about sources. -/
def aboutSources (past : List (Request × Answer)) : List (Request × Answer) :=
  past.filter fun exchange => exchange.1.isAboutSource

/-- Two stores that look for each partial in the same file and have the same sources. They need not
know the same names. -/
structure Alike (p q : Partials) : Prop where
  path : p.pathOf? = q.pathOf?
  sources : p.sources = q.sources

/-- When a source is asked for, it is kept if there is one. -/
theorem sources_answer_load (p : Partials) (tree : FileTree) (name : Text) :
    (p.answer tree (.load name)).2.sources =
      match p.source tree name with
      | .ok (some source) => p.sources.set name source
      | _ => p.sources := by
  rw [answer, source]
  cases hload : p.load tree name with
  | error fault => rfl
  | ok loaded =>
    obtain ⟨found, after⟩ := loaded
    rcases load_cases hload with ⟨hfound, rfl⟩ | ⟨-, source, path, -, rfl, rfl⟩
    · cases found with
      | none => rfl
      | some source => exact (Mapping.set_eq_self_iff.mpr hfound.symm).symm
    · rfl

/-- A request has the same answer from stores that are alike if it is about sources, and they are
alike again after any request. -/
theorem Alike.answer {p q : Partials} (h : Alike p q) (tree : FileTree) (request : Request) :
    (request.isAboutSource → (p.answer tree request).1 = (q.answer tree request).1) ∧
      Alike (p.answer tree request).2 (q.answer tree request).2 := by
  have hpath : (p.answer tree request).2.pathOf? = (q.answer tree request).2.pathOf? := by
    simp [h.path]
  cases request with
  | load name =>
    have hsource : p.source tree name = q.source tree name := by
      rw [source_eq, source_eq, h.path, h.sources]
    refine ⟨fun _ => by rw [answer_load, answer_load, hsource], hpath, ?_⟩
    rw [sources_answer_load, sources_answer_load, hsource, h.sources]
  | register name source =>
    rcases register_cases p name source with ⟨kept, hp, hpr⟩ | ⟨hp, hpr⟩ <;>
      rcases register_cases q name source with ⟨kept', hq, hqr⟩ | ⟨hq, hqr⟩
    · rw [Partials.answer, Partials.answer, hpr, hqr]
      exact ⟨fun _ => rfl, h⟩
    · simp [h.sources, hq] at hp
    · simp [h.sources, hq] at hp
    · rw [Partials.answer, Partials.answer, hpr, hqr] at hpath ⊢
      exact ⟨fun _ => rfl, hpath, by rw [h.sources]⟩
  | names => exact ⟨fun hsource => absurd hsource Bool.false_ne_true, h⟩
  | knows name => exact ⟨fun hsource => absurd hsource Bool.false_ne_true, h⟩
  | count => exact ⟨fun hsource => absurd hsource Bool.false_ne_true, h⟩

/-- Stores that are alike answer all requests about sources in the same way. -/
theorem Alike.aboutSources_history {p q : Partials} (h : Alike p q)
    (run : List (FileTree × Request)) :
    aboutSources (p.history run) = aboutSources (q.history run) := by
  induction run generalizing p q with
  | nil => rfl
  | cons moment rest ih =>
    obtain ⟨tree, request⟩ := moment
    obtain ⟨hanswer, hafter⟩ := h.answer tree request
    have hrest := ih hafter
    simp only [aboutSources, history] at hrest ⊢
    rw [List.filter_cons, List.filter_cons, hrest]
    by_cases hsource : request.isAboutSource
    · rw [if_pos hsource, if_pos hsource, hanswer hsource]
    · rw [if_neg hsource, if_neg hsource]

/-! ### Discovered files -/

variable {tree : FileTree} {directory : Path} {location : Location} {extension : Text}
  {names : List Text}

/-- The files with an extension below a directory are the files there whose own name ends in it. -/
theorem mem_filesWith_iff (hsystem : tree.IsFileSystem)
    (hdirectory : tree.find directory = .ok (location, .directory)) {files : List (List Text)}
    (hfiles : filesWith tree directory extension = .ok files) :
    names ∈ files ↔ names ≠ [] ∧
      (∃ content, tree.at? (location ++ names) = some (.file content)) ∧
      names.getLast?.any (Text.endsWith extension) := by
  rw [filesWith_of_find hdirectory] at hfiles
  obtain rfl := Except.ok.inj hfiles
  rw [List.mem_filter, ← and_assoc, and_congr_left_iff]
  intro _
  constructor
  · intro hmem
    obtain ⟨⟨names, content⟩, hunder, rfl⟩ := List.mem_map.mp hmem
    obtain ⟨hsome, hentry⟩ := FileTree.mem_filesUnder_iff.mp hunder
    exact ⟨hsome, content, hsystem.at?_of_mem hentry (by simp [hsome])⟩
  · rintro ⟨hsome, content, hfile⟩
    have hentry := FileTree.mem_entries_of_at? hfile (by simp [hsome])
    exact List.mem_map.mpr ⟨_, FileTree.mem_filesUnder_iff.mpr ⟨hsome, hentry⟩, rfl⟩

/-- The name of a partial is the path of its file, seen from the directory, less the extension. -/
theorem nameOf_pathBelow (directory : Path) (names : List Text) (extension : Text) :
    nameOf (pathBelow directory names) directory extension =
      .ok (withoutEnding extension (Path.text ⟨.here, names⟩)) := by
  have hrelative : (pathBelow directory names).relativeTo? directory = some ⟨.here, names⟩ :=
    Path.relativeTo?_eq_some_iff.mpr ⟨rfl, rfl⟩
  rw [nameOf, hrelative]

/-- Different files have partials with different names. -/
theorem eq_of_nameOf_eq (hsystem : tree.IsFileSystem) {files : List (List Text)}
    (hfiles : filesWith tree directory extension = .ok files) {others : List Text}
    (hnames : names ∈ files) (hothers : others ∈ files)
    (hsame : nameOf (pathBelow directory names) directory extension =
      nameOf (pathBelow directory others) directory extension) : names = others := by
  rw [nameOf_pathBelow, nameOf_pathBelow] at hsame
  have hpaths : pathBelow directory names = pathBelow directory others := by
    rw [← child_withoutEnding hsystem.names hfiles hnames, Except.ok.inj hsame,
      child_withoutEnding hsystem.names hfiles hothers]
  exact List.append_cancel_left (Path.mk.inj hpaths).2

/-- The files with an extension have different names. -/
theorem nodup_filesWith (hsystem : tree.IsFileSystem)
    (hdirectory : tree.find directory = .ok (location, .directory)) {files : List (List Text)}
    (hfiles : filesWith tree directory extension = .ok files) : files.Nodup := by
  rw [filesWith_of_find hdirectory] at hfiles
  obtain rfl := Except.ok.inj hfiles
  exact (hsystem.nodup_filesUnder location).filter _

/-- A new store for a directory knows the path of each file under the name of its partial. -/
theorem get?_paths_of_ofDirectory (hsystem : tree.IsFileSystem)
    (hdirectory : tree.find directory = .ok (location, .directory)) {files : List (List Text)}
    (hfiles : filesWith tree directory extension = .ok files) {store : Partials}
    (hstore : ofDirectory tree directory extension = .ok store) (hnames : names ∈ files) :
    store.paths.get? (withoutEnding extension (Path.text ⟨.here, names⟩)) =
      some (pathBelow directory names) := by
  rw [ofDirectory, discover, hfiles] at hstore
  obtain rfl := Except.ok.inj hstore
  have hkeys : (Mapping.keys (files.map fun names =>
      (withoutEnding extension (Path.text ⟨.here, names⟩),
        pathBelow directory names))).Nodup := by
    rw [Mapping.keys, List.map_map]
    have hnodup := nodup_filesWith hsystem hdirectory hfiles
    refine hnodup.map_on fun names hmem others hother hsame => ?_
    refine eq_of_nameOf_eq hsystem hfiles hmem hother ?_
    rw [nameOf_pathBelow, nameOf_pathBelow]
    exact congrArg Except.ok hsame
  dsimp only
  rw [Mapping.ofEntries_of_nodup hkeys]
  exact Mapping.get?_of_mem hkeys (List.mem_map.mpr ⟨names, hnames, rfl⟩)

/-- A store can be built for a directory unless its path is too long. -/
theorem exists_ofDirectory (hlong : ∀ long, tree.find directory ≠ .error (.nameTooLong long))
    (extension : Text) :
    ∃ files store, filesWith tree directory extension = .ok files ∧
      ofDirectory tree directory extension = .ok store := by
  obtain ⟨files, hfiles⟩ : ∃ files, filesWith tree directory extension = .ok files := by
    rcases tree.hasDirectory_cases directory with
      ⟨location, hfound, -⟩ | ⟨long, hfound, -⟩ | ⟨-, -, hnone⟩
    · exact ⟨_, filesWith_of_find hfound extension⟩
    · exact absurd hfound (hlong long)
    · exact ⟨_, filesWith_eq_nil hnone extension⟩
  rw [ofDirectory, discover, hfiles]
  exact ⟨files, _, rfl, rfl⟩

/-- New stores for the same directory are alike, whatever files they were built over. -/
theorem alike_of_ofDirectory {before : FileTree} {store early : Partials}
    (hsystem : tree.IsFileSystem) (hbefore : before.IsFileSystem)
    (hearly : ofDirectory before directory extension = .ok early)
    (hstore : ofDirectory tree directory extension = .ok store) : Alike early store := by
  obtain ⟨hsources, hpath⟩ := pathOf?_of_ofDirectory hsystem.names hstore
  obtain ⟨hempty, hderived⟩ := pathOf?_of_ofDirectory hbefore.names hearly
  refine ⟨funext fun name => ?_, hempty.trans hsources.symm⟩
  rw [hderived, hpath]

/-- **Names lead back to files.** A store that is built for a directory finds the files there that
end in the extension, whatever the extension is. It names a partial for each of them; with the
extension behind it, the name leads from the directory to the file, and different files have
different names. So whatever path the store knows for a name is the one that the name and the
extension tell. And a store that was built over other files, say before these were created, answers
all requests about sources in the same way, while the files change in any way. -/
theorem files_of_names (hsystem : tree.IsFileSystem)
    (hdirectory : tree.find directory = .ok (location, .directory)) (extension : Text) :
    ∃ files store, filesWith tree directory extension = .ok files ∧
      ofDirectory tree directory extension = .ok store ∧
      (∀ names, names ∈ files ↔ names ≠ [] ∧
        (∃ content, tree.at? (location ++ names) = some (.file content)) ∧
        names.getLast?.any (Text.endsWith extension)) ∧
      (∀ names ∈ files, ∃ name,
        nameOf (pathBelow directory names) directory extension = .ok name ∧
        directory.child (name ++ extension) = pathBelow directory names ∧
        store.paths.get? name = some (pathBelow directory names)) ∧
      (∀ names ∈ files, ∀ others ∈ files,
        nameOf (pathBelow directory names) directory extension =
          nameOf (pathBelow directory others) directory extension → names = others) ∧
      (∀ name path, store.paths.get? name = some path →
        path = directory.child (name ++ extension)) ∧
      ∀ before : FileTree, before.IsFileSystem → ∃ early,
        ofDirectory before directory extension = .ok early ∧
        ∀ run, aboutSources (early.history run) = aboutSources (store.history run) := by
  have hlong (other : FileTree) (long : Path) :
      other.find directory ≠ .error (.nameTooLong long) :=
    FileTree.find_ne_nameTooLong (FileTree.find_eq_ok_iff.mp hdirectory).1 long
  obtain ⟨files, store, hfiles, hstore⟩ := exists_ofDirectory (hlong tree) extension
  refine ⟨files, store, hfiles, hstore, fun names => mem_filesWith_iff hsystem hdirectory hfiles,
    fun names hnames => ?_, fun names hnames others hothers =>
      eq_of_nameOf_eq hsystem hfiles hnames hothers, fun name path hpath => ?_,
    fun before hbefore => ?_⟩
  · exact ⟨_, nameOf_pathBelow directory names extension,
      child_withoutEnding hsystem.names hfiles hnames,
      get?_paths_of_ofDirectory hsystem hdirectory hfiles hstore hnames⟩
  · have hderived := (pathOf?_of_ofDirectory hsystem.names hstore).2 name
    rw [pathOf?, hpath] at hderived
    exact Option.some.inj hderived
  · obtain ⟨-, early, -, hearly⟩ := exists_ofDirectory (hlong before) extension
    exact ⟨early, hearly,
      (alike_of_ofDirectory hsystem hbefore hearly hstore).aboutSources_history⟩

/-- Files that are named just the extension, which has two points, one of them below a directory
with a point in its name. A store that was built before there were any does not know their names,
and gives the same source. -/
theorem files_of_names_of_bare_extension :
    let directory : Path := ⟨.here, [['d']]⟩
    let extension := ".x.y".toList
    let name := "p./".toList
    let before : FileTree := ⟨[([['d']], .directory)], []⟩
    let tree : FileTree := ⟨[([['d']], .directory), ([['d'], extension], .file (.text ['A'])),
      ([['d'], ['p', '.']], .directory),
      ([['d'], ['p', '.'], extension], .file (.text ['B']))], []⟩
    tree.IsFileSystem ∧ before.IsFileSystem ∧
      tree.find directory = .ok ([['d']], .directory) ∧
      ∃ early store, ofDirectory before directory extension = .ok early ∧ early.names = [] ∧
        ofDirectory tree directory extension = .ok store ∧
        store.paths.get? name = some ⟨.here, [['d'], ['p', '.'], extension]⟩ ∧
        (early.answer tree (.load name)).1 = .source (some ['B']) ∧
        (store.answer tree (.load name)).1 = .source (some ['B']) := by
  intro directory extension name before tree
  have hsystem : tree.IsFileSystem := {
    tree := FileTree.isTree_of_entries (by decide +kernel) (by decide +kernel)
    nodup := by decide +kernel
    names := by decide +kernel }
  have hbefore : before.IsFileSystem := {
    tree := FileTree.isTree_of_entries (by decide +kernel) (by decide +kernel)
    nodup := by decide +kernel
    names := by decide +kernel }
  have hdirectory : tree.find directory = .ok ([['d']], .directory) :=
    FileTree.find_eq_ok_iff.mpr ⟨by cbv, by decide +kernel⟩
  obtain ⟨files, store, -, hstore, hmem, hnames, -, -, hearlier⟩ :=
    files_of_names hsystem hdirectory extension
  obtain ⟨early, hearly, hruns⟩ := hearlier before hbefore
  have hnone : ofDirectory before directory extension =
      .ok ⟨some directory, extension, [], []⟩ := by cbv
  obtain rfl := Except.ok.inj (hearly.symm.trans hnone)
  have hfile : [['p', '.'], extension] ∈ files :=
    (hmem _).mpr ⟨by simp, ⟨.text ['B'], by decide +kernel⟩, by decide +kernel⟩
  obtain ⟨found, hfound, -, hknown⟩ := hnames _ hfile
  rw [nameOf_pathBelow] at hfound
  have hname : name = found := Eq.trans (by decide +kernel) (Except.ok.inj hfound)
  have hanswer : ((⟨some directory, extension, [], []⟩ : Partials).answer tree (.load name)).1 =
      .source (some ['B']) := by cbv
  refine ⟨hsystem, hbefore, hdirectory, _, store, hearly, by decide +kernel, hstore,
    hname ▸ hknown, hanswer, ?_⟩
  have hrun := hruns [(tree, .load name)]
  rw [← hanswer]
  exact (Prod.mk.inj (List.cons.inj hrun).1).2.symm

end Partials

end Stencil
