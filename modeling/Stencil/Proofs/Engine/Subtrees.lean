import Stencil.Proofs.Engine.Listing
import Stencil.Proofs.Text.Search

/-!
# Templates below a subdirectory

To list the templates below a subdirectory is a search of its own, which starts there and sorts what
it finds. It finds what the search from the directory of templates finds below the subdirectory, in
the same order. What counts as a partial is decided by paths: where the path of the directory of
partials goes up, none of the files there is left out.
-/

namespace Stencil

/-! ### Directories and what is below them -/

/-- A character that is in no name and not in the text of a path, and that is neither a slash nor a
point, is not in the text of the path with the names behind it. -/
theorem Path.not_mem_text_append {root : Path} {names : List Text} {c : Char}
    (hroot : c ∉ root.text) (hnames : ∀ name ∈ names, c ∉ name) (hslash : c ≠ '/')
    (hpoint : c ≠ '.') : c ∉ text ⟨root.anchor, root.parts ++ names⟩ := by
  by_cases hhere : (⟨root.anchor, root.parts ++ names⟩ : Path) = here
  · rw [hhere]
    simpa [text, here] using hpoint
  · have hanchor : c ∉ root.anchor.text := by
      cases root.anchor <;> simp [Anchor.text, hslash]
    rw [text_of_ne_here hhere, List.mem_append, not_or]
    refine ⟨hanchor, fun hmem => ?_⟩
    obtain ⟨part, hpart, hc⟩ := (mem_intercalate hmem).resolve_left hslash
    rcases List.mem_append.mp hpart with hpart | hpart
    · refine hroot ?_
      rw [text_of_ne_here fun heq => by simp [heq, here] at hpart]
      exact List.mem_append_right _ ((Text.infix_intercalate_of_mem hpart).subset hc)
    · exact hnames part hpart hc

namespace FileTree

variable {t : FileTree} {base location : Location} {root path : Path} {names : List Text}

/-- The only fault of a search for a directory is that a name is too long. -/
theorem exists_nameTooLong_of_hasDirectory {fault : Fault}
    (h : t.hasDirectory path = .error fault) : ∃ long, fault = .nameTooLong long := by
  rcases hasDirectory_cases t path with ⟨_, -, hrun⟩ | ⟨long, -, hrun⟩ | ⟨-, -, hrun⟩
  · rw [hrun] at h
    contradiction
  · rw [hrun] at h
    exact ⟨long, (Except.error.inj h).symm⟩
  · rw [hrun] at h
    contradiction

/-- Where a directory is found, there are directories above it. -/
theorem find_above (htree : t.IsTree) (hnames : ∀ name ∈ names, name ≠ up)
    (h : t.find ⟨root.anchor, root.parts ++ names⟩ = .ok (location, .directory)) :
    ∃ base, t.find root = .ok (base, .directory) ∧ location = base ++ names := by
  obtain ⟨hlocate, hdirectory⟩ := find_eq_ok_iff.mp h
  obtain ⟨hpath, hleads⟩ := locate_eq_ok_iff.mp hlocate
  obtain ⟨base, hroot, hbelow⟩ := leads_append_iff.mp hleads
  have hlocation : location = base ++ names := by
    rw [hbelow.eq_foldl, foldl_follow_of_leadDown hnames]
  have haddressable : IsAddressable root := hpath.of_isPrefix (List.prefix_append _ _)
  refine ⟨base, find_eq_ok_iff.mpr ⟨locate_eq_ok_iff.mpr ⟨haddressable, hroot⟩, ?_⟩, hlocation⟩
  -- Nothing stands below what is no directory.
  by_contra hbase
  rw [hlocation] at hdirectory
  by_cases hempty : names = []
  · rw [hempty, List.append_nil] at hdirectory
    exact hbase hdirectory
  · rw [htree.at?_append_eq_none hbase hempty] at hdirectory
    contradiction

/-- Names that lead through directories are followed to the end, or one of them is too long. -/
theorem foldlM_step_cases (path : Path) (hnames : ∀ name ∈ names, name ≠ up)
    (hdirectories : ∀ first, first <+: names → t.at? (base ++ first) = some .directory) :
    names.foldlM (t.step path) base = .ok (base ++ names) ∨
      names.foldlM (t.step path) base = .error (.nameTooLong path) := by
  induction names generalizing base with
  | nil =>
    rw [List.append_nil]
    exact Or.inl rfl
  | cons name names ih =>
    obtain ⟨hname, hrest⟩ := List.forall_mem_cons.mp hnames
    have hbase := hdirectories [] List.nil_prefix
    rw [List.append_nil] at hbase
    have hpoints : (name == ['.', '.']) = false := by simpa [up] using hname
    have hstep : t.step path base name =
        if nameLimit < Text.byteCount name then .error (.nameTooLong path)
        else .ok (base ++ [name]) := by
      rw [step, hbase]
      simp [hpoints]
    rw [List.foldlM_cons, hstep]
    split
    · exact Or.inr rfl
    · rw [List.append_cons base name names]
      refine ih hrest fun first hfirst => ?_
      rw [← List.append_cons]
      exact hdirectories (name :: first) (List.cons_prefix_cons.mpr ⟨rfl, hfirst⟩)

/-- A directory below another one is found, unless a name is too long to be looked for. -/
theorem find_below (hroot : t.find root = .ok (base, .directory))
    (hnames : ∀ name ∈ names, name ≠ up ∧ '\x00' ∉ name)
    (hdirectories : ∀ first, first <+: names → t.at? (base ++ first) = some .directory)
    (hlong : ∀ long, t.find ⟨root.anchor, root.parts ++ names⟩ ≠ .error (.nameTooLong long)) :
    t.find ⟨root.anchor, root.parts ++ names⟩ = .ok (base ++ names, .directory) := by
  obtain ⟨hlocate, -⟩ := find_eq_ok_iff.mp hroot
  have hnull : '\x00' ∉ (⟨root.anchor, root.parts ++ names⟩ : Path).text :=
    Path.not_mem_text_append (locate_eq_ok_iff.mp hlocate).1.null
      (fun name hname => (hnames name hname).2) (by decide) (by decide)
  have hshort : Text.byteCount (⟨root.anchor, root.parts ++ names⟩ : Path).text ≤ pathLimit := by
    by_contra hlimit
    refine hlong ⟨root.anchor, root.parts ++ names⟩ (find_of_locate_error ?_)
    rw [locate, if_neg (by simpa using hnull), if_pos (Nat.not_le.mp hlimit)]
  have hfollow := locate_append hlocate ⟨hnull, hshort⟩
  rcases foldlM_step_cases ⟨root.anchor, root.parts ++ names⟩
    (fun name hname => (hnames name hname).1) hdirectories with hok | herror
  · exact find_of_at? (hfollow.trans hok) (hdirectories names List.prefix_rfl)
  · exact absurd (find_of_locate_error (hfollow.trans herror)) (hlong _)

end FileTree

namespace Desk

variable {desk : Desk} {directory : Path} {names below : List Text}

/-! ### What is listed -/

/-- A template below a directory, by the names that lead to it from there: a file whose name ends in
the extension. -/
structure IsTemplate (desk : Desk) (directory : Path) (names : List Text) : Prop where
  file : ∃ location content, desk.tree.find directory = .ok (location, .directory) ∧
    desk.tree.at? (location ++ names) = some (.file content)
  ending : names.getLast?.any (Text.endsWith desk.engine.settings.extension)

/-- Whether the path of a file goes on from that of the directory of partials. -/
def leavesOut (desk : Desk) (directory : Path) (names : List Text) : Bool :=
  (Partials.pathBelow directory names).isBelow desk.engine.settings.partialsDir

/-- A file at a place below that of the directory of partials. -/
def IsPartial (desk : Desk) (directory : Path) (names : List Text) : Prop :=
  ∃ rest, rest ≠ [] ∧ desk.tree.place (Partials.pathBelow directory names) =
    desk.tree.place desk.engine.settings.partialsDir ++ rest

/-- A template has a name. -/
theorem IsTemplate.ne_nil (h : desk.IsTemplate directory names) : names ≠ [] := by
  rintro rfl
  exact nomatch h.ending

/-- The names of a template are such as files have. -/
theorem IsTemplate.isName (h : desk.IsTemplate directory names)
    (hsystem : desk.tree.IsFileSystem) : ∀ name ∈ names, FileTree.IsName name := by
  obtain ⟨location, content, -, hfile⟩ := h.file
  exact fun name hname => hsystem.isName_of_at? hfile name (List.mem_append_right _ hname)

/-- The path of a template is read back from its text. -/
theorem IsTemplate.ofText_text (h : desk.IsTemplate directory names)
    (hsystem : desk.tree.IsFileSystem) :
    Path.ofText (Path.text ⟨.here, names⟩) = ⟨.here, names⟩ :=
  Path.ofText_text (FileTree.isNormal_of_isName (h.isName hsystem))

/-- The templates below a directory are listed, but for those that are left out. -/
theorem mem_listedBelow_iff (hsystem : desk.tree.IsFileSystem) {template : Text} :
    template ∈ desk.listedBelow directory ↔ ∃ names, template = Path.text ⟨.here, names⟩ ∧
      desk.IsTemplate directory names ∧ desk.leavesOut directory names = false := by
  unfold listedBelow
  split
  · next location hfound =>
    rw [templatesBelow, List.mem_mergeSort, List.mem_map]
    constructor
    · rintro ⟨names, hnames, rfl⟩
      obtain ⟨hsome, ⟨content, hentry⟩, hends, hkept⟩ := mem_templateNames_iff.mp hnames
      have hfile := hsystem.at?_of_mem hentry (by simp [hsome])
      exact ⟨names, rfl, ⟨⟨location, content, hfound, hfile⟩, hends⟩, hkept⟩
    · rintro ⟨names, rfl, htemplate, hkept⟩
      obtain ⟨location', content, hfound', hfile⟩ := htemplate.file
      rw [hfound] at hfound'
      obtain ⟨rfl, -⟩ := Prod.mk.inj (Except.ok.inj hfound')
      have hentry := FileTree.mem_entries_of_at? hfile (by simp [htemplate.ne_nil])
      exact ⟨names, mem_templateNames_iff.mpr
        ⟨htemplate.ne_nil, ⟨content, hentry⟩, htemplate.ending, hkept⟩, rfl⟩
  · next hnone =>
    refine ⟨fun h => absurd h List.not_mem_nil, ?_⟩
    rintro ⟨names, -, htemplate, -⟩
    obtain ⟨location, content, hfound, -⟩ := htemplate.file
    exact absurd hfound (hnone location)

/-- The templates below a directory are strictly ascending. -/
theorem ascending_listedBelow (hsystem : desk.tree.IsFileSystem) (directory : Path) :
    (desk.listedBelow directory).Pairwise fun a b => Text.le a b ∧ a ≠ b := by
  unfold listedBelow
  split
  · next location _ =>
    exact (Text.pairwise_mergeSort _).and (nodup_templatesBelow hsystem directory location)
  · exact List.Pairwise.nil

/-! ### Below a subdirectory -/

/-- Different names stay different when they are seen from the directory of templates. -/
theorem qualified_injective (relative : Path) : Function.Injective (qualified relative) := by
  intro s t h
  unfold qualified at h
  split at h
  · exact h
  · simpa using h

/-- What is left out below a subdirectory is left out of the whole. -/
theorem leavesOut_below (desk : Desk) (directory : Path) (below names : List Text) :
    desk.leavesOut ⟨directory.anchor, directory.parts ++ below⟩ names =
      desk.leavesOut directory (below ++ names) := by
  have hpath : Partials.pathBelow ⟨directory.anchor, directory.parts ++ below⟩ names =
      Partials.pathBelow directory (below ++ names) := by
    change (⟨directory.anchor, directory.parts ++ below ++ names⟩ : Path) =
      ⟨directory.anchor, directory.parts ++ (below ++ names)⟩
    rw [List.append_assoc]
  rw [leavesOut, leavesOut, hpath]

section

variable (hsystem : desk.tree.IsFileSystem)
  (hnull : ∀ e ∈ desk.tree.entries, ∀ name ∈ e.1, '\x00' ∉ name)
  (hdown : ∀ name ∈ below, name ≠ FileTree.up)
  (hlong : ∀ long, desk.tree.find ⟨directory.anchor, directory.parts ++ below⟩ ≠
    .error (.nameTooLong long))

include hsystem hnull hdown hlong

/-- The templates below a subdirectory are those of the directory with the names of the subdirectory
in front. -/
theorem isTemplate_below_iff (hnames : names ≠ []) :
    desk.IsTemplate ⟨directory.anchor, directory.parts ++ below⟩ names ↔
      desk.IsTemplate directory (below ++ names) := by
  have hlast : (below ++ names).getLast? = names.getLast? := List.getLast?_append_of_ne_nil _ hnames
  constructor
  · rintro ⟨⟨location, content, hfound, hfile⟩, hends⟩
    obtain ⟨base, hbase, rfl⟩ := FileTree.find_above hsystem.tree hdown hfound
    exact ⟨⟨base, content, hbase, by rwa [← List.append_assoc]⟩, by rwa [hlast]⟩
  · rintro ⟨⟨base, content, hbase, hfile⟩, hends⟩
    rw [← List.append_assoc] at hfile
    have hentry := FileTree.mem_entries_of_at? hfile (by simp [hnames])
    -- The file stands below all of the subdirectory, so the names lead through directories.
    have hdirectories (first : List Text) (hfirst : first <+: below) :
        desk.tree.at? (base ++ first) = some .directory := by
      obtain ⟨rest, rfl⟩ := hfirst
      by_contra hnone
      rw [List.append_assoc, List.append_assoc, ← List.append_assoc base,
        hsystem.tree.at?_append_eq_none hnone (by simp [hnames])] at hfile
      contradiction
    have hfound := FileTree.find_below hbase (fun name hname => ⟨hdown name hname,
      hnull _ hentry name (by simp [hname])⟩) hdirectories hlong
    exact ⟨⟨base ++ below, content, hfound, hfile⟩, by rwa [hlast] at hends⟩

/-- What is listed below a subdirectory, by the names seen from the directory, is what is listed of
the directory and is below the subdirectory. -/
theorem listedBelow_subdirectory :
    (desk.listedBelow ⟨directory.anchor, directory.parts ++ below⟩).map
        (qualified ⟨.here, below⟩) =
      (desk.listedBelow directory).filter fun template =>
        (Path.ofText template).isBelow ⟨.here, below⟩ := by
  refine Text.eq_of_ascending ?_ ((ascending_listedBelow hsystem directory).filter _) ?_
  · rw [List.pairwise_map]
    refine (ascending_listedBelow hsystem _).imp fun {s t} h => ⟨?_, (qualified_injective _).ne h.2⟩
    rw [le_qualified]
    exact h.1
  · intro template
    rw [List.mem_map, List.mem_filter, mem_listedBelow_iff hsystem]
    constructor
    · rintro ⟨_, hlisted, rfl⟩
      obtain ⟨names, rfl, htemplate, hkept⟩ := (mem_listedBelow_iff hsystem).mp hlisted
      have hwhole := (isTemplate_below_iff hsystem hnull hdown hlong htemplate.ne_nil).mp htemplate
      have hanchor : (⟨.here, below⟩ : Path).anchor = .here := rfl
      have htext := text_qualified hanchor htemplate.ne_nil
      rw [leavesOut_below] at hkept
      rw [← htext]
      refine ⟨⟨below ++ names, rfl, hwhole, hkept⟩, ?_⟩
      rw [hwhole.ofText_text hsystem]
      exact Path.isBelow_iff.mpr ⟨names, htemplate.ne_nil, rfl⟩
    · rintro ⟨⟨all, rfl, hwhole, hkept⟩, hbelow⟩
      rw [hwhole.ofText_text hsystem] at hbelow
      obtain ⟨names, hnames, hpath⟩ := Path.isBelow_iff.mp hbelow
      obtain rfl : all = below ++ names := (Path.mk.inj hpath).2
      have htemplate := (isTemplate_below_iff hsystem hnull hdown hlong hnames).mpr hwhole
      rw [← leavesOut_below] at hkept
      exact ⟨_, (mem_listedBelow_iff hsystem).mpr ⟨names, rfl, htemplate, hkept⟩,
        (text_qualified rfl hnames).symm⟩

end

/-! ### Partials -/

/-- Where the directory of partials is below that of templates by its path, the files below it are
left out exactly if the path does not go up. -/
theorem leavesOut_iff (hsystem : desk.tree.IsFileSystem) {partials : Path}
    (hpartials : desk.engine.settings.partialsDir.relativeTo? directory = some partials)
    (h : desk.IsTemplate directory names) :
    desk.leavesOut directory names ↔
      FileTree.up ∉ partials.parts ∧ desk.IsPartial directory names := by
  obtain ⟨hpath, -⟩ := Path.relativeTo?_eq_some_iff.mp hpartials
  have hnames : ∀ name ∈ names, name ≠ FileTree.up := fun name hname =>
    (h.isName hsystem name hname).2.2.1
  have hplace : desk.tree.place (Partials.pathBelow directory names) =
      desk.tree.place directory ++ names := FileTree.place_append hnames _ _
  have hbelow : desk.leavesOut directory names ↔
      ∃ rest, rest ≠ [] ∧ names = partials.parts ++ rest := by
    rw [leavesOut, Path.isBelow_iff, hpath]
    refine exists_congr fun rest => and_congr_right fun _ => ?_
    change (⟨directory.anchor, directory.parts ++ names⟩ : Path) =
      ⟨directory.anchor, directory.parts ++ partials.parts ++ rest⟩ ↔ _
    rw [List.append_assoc, Path.mk.injEq, List.append_cancel_left_eq]
    exact and_iff_right rfl
  have hdirectory (hdown : FileTree.up ∉ partials.parts) :
      desk.tree.place desk.engine.settings.partialsDir =
        desk.tree.place directory ++ partials.parts := by
    rw [hpath]
    exact FileTree.place_append (fun name hname heq => hdown (heq ▸ hname)) _ _
  rw [hbelow]
  constructor
  -- The names of a file do not go up, so none of them go on from a path that does.
  · rintro ⟨rest, hrest, rfl⟩
    have hdown : FileTree.up ∉ partials.parts := fun hup =>
      hnames _ (List.mem_append_left _ hup) rfl
    refine ⟨hdown, rest, hrest, ?_⟩
    rw [hplace, hdirectory hdown, List.append_assoc]
  · rintro ⟨hdown, rest, hrest, hsame⟩
    rw [hplace, hdirectory hdown, List.append_assoc, List.append_cancel_left_eq] at hsame
    exact ⟨rest, hrest, hsame⟩

/-! ### Listings -/

/-- A listing of a desk: strictly ascending, with all templates but those that are left out. -/
structure IsListing (desk : Desk) (templates : List Text) : Prop where
  ascending : templates.Pairwise fun a b => Text.le a b ∧ a ≠ b
  mem_iff : ∀ template, template ∈ templates ↔
    ∃ names, template = Path.text ⟨.here, names⟩ ∧
      desk.IsTemplate desk.engine.settings.templatesDir names ∧
      desk.leavesOut desk.engine.settings.templatesDir names = false

/-- What is listed of the directory of templates is a listing. -/
theorem isListing_listedBelow (hsystem : desk.tree.IsFileSystem) :
    desk.IsListing (desk.listedBelow desk.engine.settings.templatesDir) where
  ascending := ascending_listedBelow hsystem _
  mem_iff _ := mem_listedBelow_iff hsystem

/-- **To list a subtree is to filter the listing of the whole.** For every subdirectory whose path is
relative and does not go up, what is listed below it is what is listed of the whole and lies below
it, in the same order, whether the subdirectory is there or not. Listings are strictly ascending and
have all templates but those that are left out; where the directory of partials is below that of
templates by its path, these are the partials, unless the path goes up. There is a listing unless a
name on the way to the directory is too long to be looked for. -/
theorem listTemplates_subdirectory {subdirectory : Text} (hsystem : desk.tree.IsFileSystem)
    (hnull : ∀ e ∈ desk.tree.entries, ∀ name ∈ e.1, '\x00' ∉ name)
    (hrelative : (Path.ofText subdirectory).isAbsolute = false)
    (hdown : FileTree.up ∉ (Path.ofText subdirectory).parts) :
    let root := desk.engine.settings.templatesDir
    let directory := searchDirectory desk.engine subdirectory
    ∃ templates, desk.IsListing templates ∧
      listTemplates [] desk = ((desk.tree.hasDirectory root).map fun _ => templates, desk) ∧
      listTemplates subdirectory desk =
        ((desk.tree.hasDirectory directory).map fun _ => templates.filter fun template =>
          (Path.ofText template).isBelow (Path.ofText subdirectory), desk) ∧
      (∀ fault, desk.tree.hasDirectory directory = .error fault →
        ∃ path, fault = .nameTooLong path) ∧
      ∀ partials, desk.engine.settings.partialsDir.relativeTo? root = some partials →
        ∀ names, desk.IsTemplate root names →
          (desk.leavesOut root names ↔
            FileTree.up ∉ partials.parts ∧ desk.IsPartial root names) := by
  intro root directory
  have hbelow : directory.relativeTo? root = some (Path.ofText subdirectory) :=
    relativeTo?_searchDirectory _ hrelative
  obtain ⟨hpath, hanchor⟩ := Path.relativeTo?_eq_some_iff.mp hbelow
  have hread : Path.ofText subdirectory = ⟨.here, Path.partsOf subdirectory⟩ := by
    rw [← hanchor]
    rfl
  have hsame (hlong : ∀ long, desk.tree.find directory ≠ .error (.nameTooLong long)) :
      (desk.listedBelow directory).map (qualified (Path.ofText subdirectory)) =
        (desk.listedBelow root).filter fun template =>
          (Path.ofText template).isBelow (Path.ofText subdirectory) := by
    rw [hpath] at hlong ⊢
    rw [hread]
    exact listedBelow_subdirectory hsystem hnull (fun name hname heq => hdown (heq ▸ hname)) hlong
  refine ⟨_, isListing_listedBelow hsystem, listTemplates_nil desk, ?_,
    fun fault => FileTree.exists_nameTooLong_of_hasDirectory,
    fun partials hpartials names => leavesOut_iff hsystem hpartials⟩
  rw [listTemplates_eq hbelow]
  -- Where there is a fault nothing is listed, so it does not matter that the search finds less.
  rcases desk.tree.hasDirectory_cases directory with
    ⟨location, hfound, -⟩ | ⟨long, -, hrun⟩ | ⟨-, hlong, -⟩
  · rw [hsame (by simp [hfound])]
  · rw [hrun]
    rfl
  · rw [hsame hlong]

/-! ### A subdirectory with partials in it -/

/-- Two files below a directory `a`, one of them in a directory `p` there. -/
def shelfTree : FileTree where
  entries :=
    [(["templates".toList], .directory),
     (["templates".toList, ['a']], .directory),
     (["templates".toList, ['a'], ['p']], .directory),
     (["templates".toList, ['a'], ['p'], "x.hbs".toList], .file (.text [])),
     (["templates".toList, ['a'], "y.hbs".toList], .file (.text []))]
  here := []

/-- A desk with these files and with a setting of where partials are. -/
def shelf (partialsSubdir : Text) : Desk where
  engine :=
    { settings := { templatesDir := .ofText "templates".toList, partialsSubdir := partialsSubdir }
      base := []
      partials := .inMemory
      cache := .empty 256 }
  tree := shelfTree
  messages := []

/-- The files are on a file system. -/
theorem isFileSystem_shelfTree : shelfTree.IsFileSystem where
  tree := FileTree.isTree_of_entries (by decide +kernel) (by decide +kernel)
  nodup := by decide +kernel
  names := by decide +kernel

/-- Both files are templates. -/
theorem isTemplate_shelf (partialsSubdir : Text) {names : List Text}
    (hnames : names ∈ [[['a'], ['p'], "x.hbs".toList], [['a'], "y.hbs".toList]]) :
    (shelf partialsSubdir).IsTemplate (shelf partialsSubdir).engine.settings.templatesDir names := by
  simp only [List.mem_cons, List.not_mem_nil, or_false] at hnames
  rcases hnames with rfl | rfl <;>
    exact ⟨⟨["templates".toList], .text [], rfl, rfl⟩, rfl⟩

/-- Below `a`, in a spelling of its own, one file is listed and the partial is left out. -/
theorem listTemplates_subdirectory_shelf :
    let desk := shelf "a/p".toList
    let subdirectory := "./a//".toList
    desk.tree.IsFileSystem ∧ (∀ e ∈ desk.tree.entries, ∀ name ∈ e.1, '\x00' ∉ name) ∧
      (Path.ofText subdirectory).isAbsolute = false ∧
      FileTree.up ∉ (Path.ofText subdirectory).parts ∧
      ∃ listed, listTemplates subdirectory desk = (.ok listed, desk) ∧
        "a/y.hbs".toList ∈ listed ∧ "a/p/x.hbs".toList ∉ listed := by
  intro desk subdirectory
  have hsystem : desk.tree.IsFileSystem := isFileSystem_shelfTree
  have hnull : ∀ e ∈ desk.tree.entries, ∀ name ∈ e.1, '\x00' ∉ name := by decide +kernel
  have hrelative : (Path.ofText subdirectory).isAbsolute = false := by decide +kernel
  have hdown : FileTree.up ∉ (Path.ofText subdirectory).parts := by decide +kernel
  obtain ⟨templates, hlisting, -, hrun, -, hout⟩ :=
    listTemplates_subdirectory hsystem hnull hrelative hdown
  have hdirectory : desk.tree.hasDirectory (searchDirectory desk.engine subdirectory) =
      .ok true := Action.eq_ok_of_toOption (by decide +kernel)
  rw [hdirectory] at hrun
  refine ⟨hsystem, hnull, hrelative, hdown, _, hrun, ?_, fun hmem => ?_⟩
  · refine List.mem_filter.mpr ⟨(hlisting.mem_iff _).mpr ⟨[['a'], "y.hbs".toList], rfl,
      isTemplate_shelf _ (by decide), by decide +kernel⟩, by decide +kernel⟩
  · obtain ⟨names, htext, htemplate, hkept⟩ :=
      (hlisting.mem_iff _).mp (List.mem_filter.mp hmem).1
    have hnames := htemplate.ofText_text hsystem
    rw [← htext] at hnames
    obtain rfl : [['a'], ['p'], "x.hbs".toList] = names :=
      (Path.mk.inj ((by decide +kernel : (⟨.here, [['a'], ['p'], "x.hbs".toList]⟩ : Path) =
        .ofText "a/p/x.hbs".toList).trans hnames)).2
    have hleft := (hout ⟨.here, [['a'], ['p']]⟩ (by decide +kernel) _ htemplate).mpr
      ⟨by decide +kernel, ["x.hbs".toList], by simp, by decide +kernel⟩
    rw [hkept] at hleft
    contradiction

/-- If the path of the directory of partials goes up, then a partial is listed. -/
theorem listTemplates_holds_partial :
    let desk := shelf "a/../a/p".toList
    let root := desk.engine.settings.templatesDir
    let names := [['a'], ['p'], "x.hbs".toList]
    (desk.engine.settings.partialsDir.relativeTo? root).isSome ∧
      desk.tree.hasDirectory desk.engine.settings.partialsDir = .ok true ∧
      desk.IsPartial root names ∧
      ∃ templates, listTemplates [] desk = (.ok templates, desk) ∧
        Path.text ⟨.here, names⟩ ∈ templates := by
  intro desk root names
  have hroot : desk.tree.hasDirectory root = .ok true :=
    Action.eq_ok_of_toOption (by decide +kernel)
  have hlist := listTemplates_nil desk
  change listTemplates [] desk = ((desk.tree.hasDirectory root).map _, desk) at hlist
  rw [hroot] at hlist
  refine ⟨by decide +kernel, Action.eq_ok_of_toOption (by decide +kernel),
    ⟨["x.hbs".toList], by simp, by decide +kernel⟩, _, hlist, ?_⟩
  exact (mem_listedBelow_iff isFileSystem_shelfTree).mpr
    ⟨names, rfl, isTemplate_shelf _ (by decide), by decide +kernel⟩

end Desk

end Stencil
