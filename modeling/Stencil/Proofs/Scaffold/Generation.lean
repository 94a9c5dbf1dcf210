import Stencil.Proofs.FileTree.Directories
import Stencil.Proofs.Scaffold.PackageText
import Mathlib.Data.List.Nodup

/-!
# Projects are made whole

A project is not begun if its root is there already or its plan fails. If it is made, its root holds
the planned files and the directories that they need, and nothing else; around the root nothing
changes but that directories above it are made. The order in which the files are written does not
matter: after each of them the root holds what the files so far need, and no file needs the place of
another one.
-/

namespace Stencil

/-- Trees with the same things in the same places. -/
def FileTree.Same (t t' : FileTree) : Prop := t'.here = t.here ∧ ∀ location, t'.at? location = t.at? location

namespace Studio

open FileTree

/-! ### What stands in a project -/

/-- What stands below names in a directory that holds some files: the file of these names, or a
directory that one of the files needs. -/
def Stands (files : Mapping Text) (names : List Text) : Entry → Prop
  | .file content =>
    ∃ name text, (name, text) ∈ files ∧ names = Path.partsOf name ∧ content = .text text
  | .directory =>
    names = [] ∨ ∃ name ∈ Mapping.keys files, names <+: Path.partsOf name ∧ names ≠ Path.partsOf name

variable {files done order : Mapping Text} {name text : Text} {names : List Text} {entry : Entry}

/-- In an empty directory stands nothing but the directory. -/
theorem stands_nil_iff : Stands [] names entry ↔ names = [] ∧ entry = .directory := by
  cases entry <;> simp [Stands, Mapping.keys]

/-- With one more file there stand the file and its directories besides. -/
theorem stands_cons_iff :
    Stands ((name, text) :: files) names entry ↔
      names = Path.partsOf name ∧ entry = .file (.text text) ∨
      (names <+: Path.partsOf name ∧ names ≠ Path.partsOf name) ∧ entry = .directory ∨
      Stands files names entry := by
  have hkeys : Mapping.keys ((name, text) :: files) = name :: Mapping.keys files := rfl
  cases entry with
  | file content =>
    simp only [Stands, List.mem_cons, Prod.mk.injEq, Entry.file.injEq, reduceCtorEq, and_false,
      false_or]
    constructor
    · rintro ⟨other, written, ⟨rfl, rfl⟩ | hfile, hnames, hcontent⟩
      · exact Or.inl ⟨hnames, hcontent⟩
      · exact Or.inr ⟨other, written, hfile, hnames, hcontent⟩
    · rintro (⟨hnames, hcontent⟩ | ⟨other, written, hfile, hnames, hcontent⟩)
      · exact ⟨name, text, Or.inl ⟨rfl, rfl⟩, hnames, hcontent⟩
      · exact ⟨other, written, Or.inr hfile, hnames, hcontent⟩
  | directory =>
    simp only [Stands, hkeys, List.mem_cons, reduceCtorEq, and_false, false_or, and_true,
      exists_eq_or_imp]
    exact or_left_comm

/-- What stands there does not depend on the order of the files. -/
theorem stands_congr (h : files.Perm order) : Stands files names entry ↔ Stands order names entry := by
  have hkeys (key : Text) : key ∈ Mapping.keys files ↔ key ∈ Mapping.keys order :=
    (h.map (·.1)).mem_iff
  cases entry <;> simp only [Stands, h.mem_iff, hkeys]

/-! ### Writing the files -/

/-- No file with one of two names stands where the other one needs a directory. -/
def Apart (name other : Text) : Prop :=
  ¬ Path.partsOf name <+: Path.partsOf other ∧ ¬ Path.partsOf other <+: Path.partsOf name

/-- Names are apart in both orders. -/
theorem Apart.symm {other : Text} (h : Apart name other) : Apart other name := ⟨h.2, h.1⟩

/-- A name that leads down from the root of a project, by a path that can be looked for. -/
structure Reachable (root : Path) (name : Text) : Prop where
  relative : (Path.ofText name).isAbsolute = false
  parts : Path.partsOf name ≠ []
  down : LeadDown (Path.partsOf name)
  path : IsAddressable (root.child name)

variable {start t t' : FileTree} {root : Path} {base : Location}

/-- A tree in which some files of a project are written: it differs from the tree at the start only
below the root, where stands what these files need. -/
structure Written (start : FileTree) (root : Path) (base : Location) (done : Mapping Text)
    (t : FileTree) : Prop where
  isTree : t.IsTree
  here : t.here = start.here
  leads : t.locate root = .ok base
  inside : ∀ names entry, t.at? (base ++ names) = some entry ↔ Stands done names entry
  outside : ∀ location, ¬ base <+: location → t.at? location = start.at? location

/-- Two trees in which the same files are written are the same. -/
theorem Written.same (h : Written start root base done t) (h' : Written start root base done t') :
    t.Same t' := by
  refine ⟨h'.here.trans h.here.symm, fun location => ?_⟩
  by_cases hbelow : base <+: location
  · obtain ⟨names, rfl⟩ := hbelow
    exact Option.ext fun entry => (h'.inside names entry).trans (h.inside names entry).symm
  · rw [h'.outside location hbelow, h.outside location hbelow]

/-- Which files are written does not depend on their order. -/
theorem Written.of_perm (h : Written start root base done t) (hperm : done.Perm order) :
    Written start root base order t :=
  { h with inside := fun names entry => (h.inside names entry).trans (stands_congr hperm) }

/-- One more file can be written, if it is apart from those that are written. -/
theorem Written.exists_writeFile (h : Written start root base done t) (hname : Reachable root name)
    (hapart : ∀ other ∈ Mapping.keys done, Apart name other) (text : Text) :
    ∃ t', writeFile (root.child name) text t = (.ok (), t') ∧
      Written start root base ((name, text) :: done) t' := by
  obtain ⟨hrelative, hparts, hdown, hpath⟩ := hname
  have hbase : t.at? base = some .directory := by
    have hroot := (h.inside [] .directory).mpr (Or.inl rfl)
    rwa [List.append_nil] at hroot
  -- In the way of the directories stands no file, and in the place of the file no directory.
  have hfree : ∀ first, first <+: Path.partsOf name → ∀ content,
      t.at? (base ++ first) ≠ some (.file content) := by
    intro first hfirst content hat
    obtain ⟨other, written, hother, rfl, -⟩ := (h.inside _ _).mp hat
    exact (hapart other (List.mem_map_of_mem hother)).2 hfirst
  have hlast : t.at? (base ++ Path.partsOf name) ≠ some .directory := by
    intro hat
    rcases (h.inside _ _).mp hat with hnil | ⟨other, hother, hbegins, -⟩
    · exact hparts hnil
    · exact (hapart other hother).1 hbegins
  rw [Path.child_of_relative hrelative] at hpath ⊢
  obtain ⟨t', hwrite, hnow⟩ := h.isTree.exists_writeFile_below h.leads hbase hparts hdown hpath
    (fun first hfirst _ => hfree first hfirst) hlast text
  refine ⟨t', hwrite, hnow.isTree, hnow.here.trans h.here, ?_, fun names entry => ?_, ?_⟩
  · exact locate_mono h.leads hnow.here fun _ => hnow.keeps hlast
  · rw [hnow.at?_eq_some_iff hfree hlast, stands_cons_iff, h.inside]
  · intro location hbelow
    rw [hnow.other location fun first _ heq => hbelow (heq ▸ List.prefix_append _ _),
      h.outside location hbelow]

/-! ### Writing all files -/

/-- The files behind the first one are written in any case. -/
theorem writeAll_cons (root : Path) (name text : Text) (rest : Mapping Text) (t : FileTree) :
    writeAll root ((name, text) :: rest) t =
      ((writeFile (root.child name) text t).1.bind fun _ =>
        (writeAll root rest (writeFile (root.child name) text t).2).1,
      (writeAll root rest (writeFile (root.child name) text t).2).2) := rfl

/-- Several files are written if each of them is. -/
theorem writeAll_cons_eq_ok {rest : Mapping Text}
    (h : writeAll root ((name, text) :: rest) t = (.ok (), t')) :
    ∃ between, writeFile (root.child name) text t = (.ok (), between) ∧
      writeAll root rest between = (.ok (), t') := by
  rw [writeAll_cons] at h
  cases hfirst : writeFile (root.child name) text t with
  | mk first between =>
    rw [hfirst] at h
    cases first with
    | error fault => exact nomatch (Prod.mk.inj h).1
    | ok _ => exact ⟨between, rfl, h⟩

/-- Files whose paths cannot be looked for are not written. -/
theorem isAddressable_of_writeAll (h : writeAll root files t = (.ok (), t')) :
    ∀ name ∈ Mapping.keys files, IsAddressable (root.child name) := by
  induction files generalizing t with
  | nil => exact List.forall_mem_nil _
  | cons file rest ih =>
    obtain ⟨name, text⟩ := file
    obtain ⟨between, hwrite, hrest⟩ := writeAll_cons_eq_ok h
    obtain ⟨_, above, -, hlast⟩ := Action.bind_eq_ok hwrite
    obtain ⟨location, hlocate, -, -⟩ := writeText_eq_ok_iff.mp (Action.changing_eq_ok hlast)
    exact List.forall_mem_cons.mpr ⟨(locate_eq_ok_iff.mp hlocate).1, ih hrest⟩

/-- Files that are apart from each other and from those that are written can all be written. -/
theorem Written.exists_writeAll (h : Written start root base done t)
    (hreachable : ∀ name ∈ Mapping.keys files, Reachable root name)
    (hapart : (Mapping.keys files).Pairwise Apart)
    (hdone : ∀ name ∈ Mapping.keys files, ∀ other ∈ Mapping.keys done, Apart name other) :
    ∃ t', writeAll root files t = (.ok (), t') ∧
      Written start root base (files.reverse ++ done) t' := by
  induction files generalizing done t with
  | nil => exact ⟨t, rfl, h⟩
  | cons file rest ih =>
    obtain ⟨name, text⟩ := file
    obtain ⟨hfirst, hrest⟩ := List.forall_mem_cons.mp hreachable
    obtain ⟨hapart, hothers⟩ := List.pairwise_cons.mp hapart
    obtain ⟨between, hwrite, hnow⟩ := h.exists_writeFile hfirst (hdone name List.mem_cons_self) text
    have hsymm : ∀ other ∈ Mapping.keys rest, ∀ before ∈ name :: Mapping.keys done,
        Apart other before := by
      intro other hother
      exact List.forall_mem_cons.mpr
        ⟨(hapart other hother).symm, hdone other (List.mem_cons_of_mem _ hother)⟩
    obtain ⟨t', hall, hlast⟩ := ih hnow hrest hothers hsymm
    refine ⟨t', ?_, ?_⟩
    · rw [writeAll_cons, hwrite]
      exact hall
    · rw [List.reverse_cons, List.append_assoc]
      exact hlast

/-- The files of a plan are apart from each other, and their names lead down from the root. -/
theorem reachable_and_apart_of_plan {studio planned : Studio}
    (hplan : plan studio = (.ok files, planned))
    (hpaths : ∀ name ∈ Mapping.keys files, IsAddressable (root.child name)) :
    (∀ name ∈ Mapping.keys files, Reachable root name) ∧ (Mapping.keys files).Pairwise Apart := by
  obtain ⟨hnodup, hplaces⟩ := nodup_keys_plan hplan
  constructor
  · intro name hname
    obtain ⟨hrelative, hparts, hdown⟩ := leadDown_of_mem_places name (hplaces name hname)
    exact ⟨hrelative, hparts, hdown, hpaths name hname⟩
  · refine hnodup.pairwise_of_forall_ne fun name hname other hother hne => ?_
    exact ⟨fun h => hne (eq_of_prefix_of_mem_places _ (hplaces _ hname) _ (hplaces _ hother) h),
      fun h => hne (eq_of_prefix_of_mem_places _ (hplaces _ hother) _ (hplaces _ hname) h).symm⟩

/-! ### Making a project -/

/-- A tree in which a project was made: at the root, where nothing was, stand the files with the
directories that they need and nothing else; elsewhere there are at most new directories, to which
paths above the root lead. -/
structure Made (root : Path) (base : Location) (files : Mapping Text) (before after : FileTree) :
    Prop where
  here : after.here = before.here
  leads : after.locate root = .ok base
  free : before.at? base = none
  inside : ∀ names entry, after.at? (base ++ names) = some entry ↔ Stands files names entry
  outside : ∀ location, ¬ base <+: location → after.at? location = before.at? location ∨
    before.at? location = none ∧ after.at? location = some .directory ∧
      ∃ above, above <+: root.parts.dropLast ∧ after.locate ⟨root.anchor, above⟩ = .ok location

variable {above : FileTree}

/-- With the root of a project made, none of its files is written. -/
theorem written_nil (h : above.IsTree) (hlocate : above.locate root = .ok base)
    (hnone : above.at? base = none) (hmade : (above.put base .directory).IsTree) :
    Written (above.put base .directory) root base [] (above.put base .directory) := by
  have hempty : above.at? base ≠ some .directory := by
    rw [hnone]
    exact nofun
  refine ⟨hmade, rfl, locate_mono hlocate here_put fun _ => at?_put_of_directory hempty,
    fun names entry => ?_, fun _ _ => rfl⟩
  rw [stands_nil_iff]
  by_cases hnames : names = []
  · rw [hnames, List.append_nil, at?_put_self (ne_nil_of_at?_ne hempty)]
    simp [eq_comm]
  · have hne : base ++ names ≠ base := by simpa using hnames
    rw [at?_put_of_ne hne, h.at?_append_eq_none hempty hnames]
    simp [hnames]

/-- With the root made behind new directories above it, and all files written, the project is made. -/
theorem Written.made {after : FileTree} (h : above.IsTree)
    (hadds : AddsDirectories root.parent start above) (hnone : above.at? base = none)
    (hafter : Written (above.put base .directory) root base files after) :
    Made root base files start after := by
  have hempty : above.at? base ≠ some .directory := by
    rw [hnone]
    exact nofun
  have helsewhere : ∀ location, ¬ base <+: location → after.at? location = above.at? location := by
    intro location hlocation
    rw [hafter.outside location hlocation, at?_put_of_ne]
    rintro rfl
    exact hlocation List.prefix_rfl
  have hkeeps : ∀ location, above.at? location = some .directory →
      after.at? location = some .directory := by
    intro location hdirectory
    rw [helsewhere location ?_, hdirectory]
    rintro ⟨names, rfl⟩
    by_cases hnames : names = []
    · rw [hnames, List.append_nil] at hdirectory
      exact hempty hdirectory
    · rw [h.at?_append_eq_none hempty hnames] at hdirectory
      contradiction
  have hhere : after.here = above.here := hafter.here.trans here_put
  refine ⟨hhere.trans hadds.here, hafter.leads, hadds.at?_eq_none hnone, hafter.inside, ?_⟩
  intro location hlocation
  rw [helsewhere location hlocation]
  refine (hadds.at? location).imp_right ?_
  rintro ⟨hbefore, hnow, parts, hparts, hleads⟩
  exact ⟨hbefore, hnow, parts, hparts, locate_mono hleads hhere hkeeps⟩

/-- A project is planned if its root is not there; then its root is made, and its files are written
in order. -/
theorem generate_run (parent : Path) (studio : Studio) :
    generate parent studio =
      match studio.tree.hasEntry (parent.child studio.project.settings.projectName) with
      | .error fault => (.error fault, studio)
      | .ok true =>
        (.error (.projectExists (parent.child studio.project.settings.projectName)), studio)
      | .ok false => (do
        let files ← plan
        onTree (FileTree.makeDirectories (parent.child studio.project.settings.projectName) false)
        onTree (writeAll (parent.child studio.project.settings.projectName)
          (files.mergeSort fun a b => Text.le a.1 b.1))
        return parent.child studio.project.settings.projectName) studio := by
  unfold generate
  rw [Action.bind_run]
  change ((liftM (studio.tree.hasEntry _) : Action Studio Bool) >>= _) studio = _
  rcases studio.tree.hasEntry (parent.child studio.project.settings.projectName) with _ | _ | _ <;>
    rfl

/-- Where a path leads to something, there is something. -/
theorem hasEntry_of_find {path : Path} {found : Location × Entry} (h : t.find path = .ok found) :
    t.hasEntry path = .ok true := by
  rw [hasEntry, find?, h]
  rfl

/-- A project that was made was planned; its root was made, and then all its files were written. -/
theorem exists_of_generate {parent made : Path} {studio after : Studio}
    (h : generate parent studio = (.ok made, after)) :
    made = parent.child studio.project.settings.projectName ∧
      ∃ files planned between, plan studio = (.ok files, planned) ∧
        FileTree.makeDirectories made false studio.tree = (.ok (), between) ∧
        writeAll made (files.mergeSort fun a b => Text.le a.1 b.1) between = (.ok (), after.tree) := by
  rw [generate_run] at h
  split at h
  · exact nomatch (Prod.mk.inj h).1
  · exact nomatch (Prod.mk.inj h).1
  · obtain ⟨files, planned, hplan, h⟩ := Action.bind_eq_ok h
    obtain ⟨_, rooted, hrooted, h⟩ := Action.bind_eq_ok h
    obtain ⟨_, written, hwritten, h⟩ := Action.bind_eq_ok h
    obtain ⟨hmade, rfl⟩ := Prod.mk.inj h
    obtain rfl := Except.ok.inj hmade
    obtain ⟨between, hbetween, rfl⟩ := Action.zoom_eq_ok hrooted
    obtain ⟨last, hlast, rfl⟩ := Action.zoom_eq_ok hwritten
    have htree := keeps_tree_plan studio
    rw [hplan] at htree
    have hstart : planned.tree = studio.tree := htree
    rw [hstart] at hbetween
    exact ⟨rfl, files, planned, between, hplan, hbetween, hlast⟩

/-- With the root of a planned project made, its files can be written in every order, if their paths
can be looked for. -/
theorem exists_writeAll_of_plan {studio planned : Studio} {between : FileTree}
    (htree : studio.tree.IsTree) (hplan : plan studio = (.ok files, planned))
    (hroot : FileTree.makeDirectories root false studio.tree = (.ok (), between))
    (hpaths : ∀ name ∈ Mapping.keys files, IsAddressable (root.child name)) :
    ∃ base, ∀ order, order.Perm files → ∃ tree, writeAll root order between = (.ok (), tree) ∧
      Written between root base files tree ∧ Made root base files studio.tree tree := by
  have hisTree := htree.makeDirectories root false
  rw [hroot] at hisTree
  obtain ⟨base, above, habove, hadds, hlocate, hnone, rfl⟩ :=
    htree.exists_of_makeDirectories_absent hroot
  obtain ⟨hreachable, hapart⟩ := reachable_and_apart_of_plan hplan hpaths
  refine ⟨base, fun order horder => ?_⟩
  have hkeys := horder.map (·.1)
  obtain ⟨tree, hwrite, hreversed⟩ := (written_nil habove hlocate hnone hisTree).exists_writeAll
    (fun name hname => hreachable name (hkeys.mem_iff.mp hname))
    (hapart.perm hkeys.symm Apart.symm) (fun _ _ => List.forall_mem_nil _)
  rw [List.append_nil] at hreversed
  have hwritten := hreversed.of_perm ((List.reverse_perm order).trans horder)
  exact ⟨tree, hwrite, hwritten, hwritten.made habove hadds hnone⟩

/-- A project that is planned is made if its root is not there and can be made, and if the paths of
its files can be looked for. -/
theorem exists_generate {parent : Path} {studio planned : Studio} {between : FileTree}
    (htree : studio.tree.IsTree)
    (habsent : studio.tree.hasEntry (parent.child studio.project.settings.projectName) = .ok false)
    (hplan : plan studio = (.ok files, planned))
    (hroot : FileTree.makeDirectories (parent.child studio.project.settings.projectName) false
      studio.tree = (.ok (), between))
    (hpaths : ∀ name ∈ Mapping.keys files,
      IsAddressable ((parent.child studio.project.settings.projectName).child name)) :
    ∃ after, generate parent studio =
      (.ok (parent.child studio.project.settings.projectName), after) := by
  obtain ⟨base, hany⟩ := exists_writeAll_of_plan htree hplan hroot hpaths
  obtain ⟨tree, hwrite, -, -⟩ := hany _ (List.mergeSort_perm files fun a b => Text.le a.1 b.1)
  have hkept : planned.tree = studio.tree := by
    have hkeeps := keeps_tree_plan studio
    rwa [hplan] at hkeeps
  have hrooted : onTree (FileTree.makeDirectories
      (parent.child studio.project.settings.projectName) false) planned =
        (.ok (), { planned with tree := between }) := by
    simp only [onTree, Action.zoom, hkept, hroot]
  have hwritten : onTree (writeAll (parent.child studio.project.settings.projectName)
      (files.mergeSort fun a b => Text.le a.1 b.1)) { planned with tree := between } =
        (.ok (), { planned with tree := tree }) := by
    simp only [onTree, Action.zoom, hwrite]
  rw [generate_run, habsent]
  dsimp only
  rw [Action.bind_run, hplan]
  dsimp only
  rw [Action.bind_run, hrooted]
  dsimp only
  rw [Action.bind_run, hwritten]
  exact ⟨_, rfl⟩

/-- **A project is made whole or not at all.** If its root is there already, making it fails with
that fault and changes nothing; if its plan fails, making it fails and changes no files. If it is
made, its root holds the planned files with the directories that they need and nothing else, and
elsewhere there are at most new directories above the root. With the root made, the files can be
written in every order, and the tree is then the same. -/
theorem generate_whole_or_not_at_all (parent : Path) (studio : Studio) :
    let root := parent.child studio.project.settings.projectName
    (∀ found, studio.tree.find root = .ok found →
      generate parent studio = (.error (.projectExists root), studio)) ∧
    (∀ fault planned, plan studio = (.error fault, planned) →
      ∃ told after, generate parent studio = (.error told, after) ∧ after.tree = studio.tree) ∧
    (studio.tree.IsTree → ∀ made after, generate parent studio = (.ok made, after) →
      made = root ∧ ∃ files planned base, plan studio = (.ok files, planned) ∧
        (Mapping.keys files).Nodup ∧ Made root base files studio.tree after.tree ∧
        ∃ between, FileTree.makeDirectories root false studio.tree = (.ok (), between) ∧
          ∀ order, order.Perm files →
            ∃ tree, writeAll root order between = (.ok (), tree) ∧ after.tree.Same tree) := by
  refine ⟨fun found hfound => ?_, fun fault planned hplan => ?_, fun htree made after hmade => ?_⟩
  · rw [generate_run, hasEntry_of_find hfound]
  · have hkept := keeps_tree_plan studio
    rw [hplan] at hkept
    rw [generate_run]
    split
    · exact ⟨_, _, rfl, rfl⟩
    · exact ⟨_, _, rfl, rfl⟩
    · rw [Action.bind_run, hplan]
      exact ⟨fault, planned, rfl, hkept⟩
  · obtain ⟨rfl, files, planned, between, hplan, hroot, hsorted⟩ := exists_of_generate hmade
    have hperm := List.mergeSort_perm files fun a b => Text.le a.1 b.1
    obtain ⟨base, hany⟩ := exists_writeAll_of_plan htree hplan hroot fun name hname =>
      isAddressable_of_writeAll hsorted name ((hperm.map (·.1)).mem_iff.mpr hname)
    obtain ⟨_, hagain, hwritten, hwhole⟩ := hany _ hperm
    obtain rfl := (Prod.mk.inj (hsorted.symm.trans hagain)).2
    refine ⟨rfl, files, planned, base, hplan, (nodup_keys_plan hplan).1, hwhole, between, hroot,
      fun order horder => ?_⟩
    obtain ⟨tree, hwrite, hother, -⟩ := hany order horder
    exact ⟨tree, hwrite, hwritten.same hother⟩

/-- A directory at hand with a file in it, besides two directories of templates. One of the templates
is no text. -/
def sampleTree : FileTree where
  entries :=
    [(["t".toList], .directory),
     (["t".toList, "App.tsx.hbs".toList], .file (.text "\x7b\x7bprojectName\x7d\x7d".toList)),
     (["raw".toList], .directory),
     (["raw".toList, "main.tsx.hbs".toList], .file (.ofBytes [0xff])),
     (["w".toList], .directory),
     (["w".toList, "kept".toList], .file (.text []))]
  here := ["w".toList]

/-- A project with a name, whose templates are in a directory. -/
def sample (name templates : String) : Studio :=
  ⟨⟨{ projectName := name.toList }, {},
    ⟨{ templatesDir := .ofText templates.toList }, [], .inMemory, .empty 256⟩, none⟩, sampleTree, []⟩

/-- The sample is a tree. -/
theorem isTree_sampleTree : sampleTree.IsTree :=
  isTree_of_entries (by decide +kernel) (by decide +kernel)

/-- In the sample a project is made in new directories. -/
theorem exists_generate_sample :
    ∃ after, generate (.ofText "new/place".toList) (sample "app" "/t") =
      (.ok (.ofText "new/place/app".toList), after) := by
  have hplaces : ∀ name ∈ places,
      IsAddressable ((Path.ofText "new/place/app".toList).child name) := by decide +kernel
  obtain ⟨files, planned, hplan⟩ : ∃ files after, plan (sample "app" "/t") = (.ok files, after) :=
    exists_plan (by decide +kernel) (by decide +kernel)
  obtain ⟨_, between, hroot⟩ : ∃ done after, FileTree.makeDirectories
      (.ofText "new/place/app".toList) false sampleTree = (.ok done, after) :=
    Action.exists_of_isOk (by decide +kernel)
  exact exists_generate isTree_sampleTree rfl hplan hroot fun name hname =>
    hplaces name ((nodup_keys_plan hplan).2 name hname)

/-- A project is not begun where a file is, nor with a template that is no text; otherwise it is
made in new directories. -/
theorem generate_whole_or_not_at_all_of_sample :
    generate .here (sample "kept" "/t") =
        (.error (.projectExists (.ofText "kept".toList)), sample "kept" "/t") ∧
      (∃ told after, generate .here (sample "app" "/raw") = (.error told, after) ∧
        after.tree = sampleTree) ∧
      ∃ after files base, generate (.ofText "new/place".toList) (sample "app" "/t") =
          (.ok (.ofText "new/place/app".toList), after) ∧
        Made (.ofText "new/place/app".toList) base files sampleTree after.tree := by
  refine ⟨?_, ?_, ?_⟩
  · exact (generate_whole_or_not_at_all .here (sample "kept" "/t")).1
      (["w".toList, "kept".toList], .file (.text [])) rfl
  · have hfails : (plan (sample "app" "/raw")).1.isOk = false := by decide +kernel
    cases hplan : plan (sample "app" "/raw") with
    | mk result planned =>
      rw [hplan] at hfails
      cases result with
      | ok files => exact nomatch hfails
      | error fault =>
        exact (generate_whole_or_not_at_all .here (sample "app" "/raw")).2.1 fault planned hplan
  · obtain ⟨after, hmade⟩ := exists_generate_sample
    obtain ⟨-, files, planned, base, -, -, hwhole, -⟩ :=
      (generate_whole_or_not_at_all (.ofText "new/place".toList) (sample "app" "/t")).2.2
        isTree_sampleTree _ after hmade
    exact ⟨after, files, base, hmade, hwhole⟩

end Studio

end Stencil
