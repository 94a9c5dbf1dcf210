import Stencil.Proofs.FileTree.Places
import Stencil.Proofs.Simulation

/-!
# Directories that are made

To make a directory is to make the directories above it as needed, one after the other. Whatever
becomes of it, nothing else changes in the tree. Below a directory that is there, all directories can
be made unless a file is in the way.
-/

namespace Stencil.FileTree

variable {t t' : FileTree} {path : Path} {present : Bool}

/-! ### One directory -/

/-- A directory is made where its path leads, if nothing stands there. -/
theorem makeDirectory_eq_ok_iff :
    t.makeDirectory path = .ok t' ↔ ∃ location, t.locate path = .ok location ∧
      t.at? location = none ∧ t' = t.put location .directory := by
  unfold makeDirectory
  cases hlocate : t.locate path with
  | error fault => exact ⟨nofun, nofun⟩
  | ok location =>
    simp only [bind, Except.bind]
    constructor
    · intro h
      split at h
      · contradiction
      · next hnone => exact ⟨location, rfl, hnone, (Except.ok.inj h).symm⟩
    · rintro ⟨_, ⟨⟩, hnone, rfl⟩
      rw [hnone]

/-- A tree stays one when a directory is made. -/
theorem IsTree.makeDirectory (h : t.IsTree) (hmade : t.makeDirectory path = .ok t') :
    t'.IsTree := by
  obtain ⟨location, hlocate, hnone, rfl⟩ := makeDirectory_eq_ok_iff.mp hmade
  have hfree : t.at? location ≠ some .directory := by
    rw [hnone]
    exact nofun
  obtain ⟨above, name, rfl, hparent⟩ := h.exists_of_locate hlocate hfree
  exact h.put hparent hfree

/-- Without leave for a directory to be there, it is a fault that none could be made. -/
theorem settle_absent (fault : Fault) : t.settle path false fault ≠ .ok () := by
  unfold settle
  split
  · exact nofun
  · exact nofun
  · cases t.hasDirectory path <;> exact nofun

/-- With leave for a directory to be there, it is no fault that one is there. -/
theorem settle_occupied (h : t.hasDirectory path = .ok true) (occupied : Path) :
    t.settle path true (.occupied occupied) = .ok () := by
  simp only [settle, Bool.true_and, h, bind, Except.bind]
  rfl

/-! ### Directories and those above them -/

variable {anchor : Anchor} {parts : List Text} {part : Text}

/-- Nothing is above a path without parts. -/
theorem makeDirectories_nil :
    makeDirectories ⟨anchor, []⟩ present t =
      match t.makeDirectory ⟨anchor, []⟩ with
      | .ok made => (.ok (), made)
      | .error fault => (t.settle ⟨anchor, []⟩ present fault, t) := by
  rw [makeDirectories]
  cases t.makeDirectory ⟨anchor, []⟩ with
  | ok made => rfl
  | error fault => cases fault <;> rfl

/-- Where a directory above is missing, those above are made first. -/
theorem makeDirectories_of_parts (hparts : path.parts ≠ []) :
    makeDirectories path present t =
      match t.makeDirectory path with
      | .ok made => (.ok (), made)
      | .error (.missing _) =>
        match makeDirectories path.parent true t with
        | (.error fault, above) => (.error fault, above)
        | (.ok (), above) =>
          match above.makeDirectory path with
          | .ok made => (.ok (), made)
          | .error fault => (above.settle path present fault, above)
      | .error fault => (t.settle path present fault, t) := by
  rw [makeDirectories]
  cases t.makeDirectory path with
  | ok made => rfl
  | error fault =>
    cases fault with
    | missing missing => exact dif_neg hparts
    | _ => rfl

/-- The directories above a path are those of its parts before the last one. -/
theorem makeDirectories_concat :
    makeDirectories ⟨anchor, parts ++ [part]⟩ present t =
      match t.makeDirectory ⟨anchor, parts ++ [part]⟩ with
      | .ok made => (.ok (), made)
      | .error (.missing _) =>
        match makeDirectories ⟨anchor, parts⟩ true t with
        | (.error fault, above) => (.error fault, above)
        | (.ok (), above) =>
          match above.makeDirectory ⟨anchor, parts ++ [part]⟩ with
          | .ok made => (.ok (), made)
          | .error fault => (above.settle ⟨anchor, parts ++ [part]⟩ present fault, above)
      | .error fault => (t.settle ⟨anchor, parts ++ [part]⟩ present fault, t) := by
  have hparts : Path.parts ⟨anchor, parts ++ [part]⟩ ≠ [] :=
    List.append_ne_nil_of_right_ne_nil _ nofun
  have hparent : Path.parent ⟨anchor, parts ++ [part]⟩ = ⟨anchor, parts⟩ :=
    congrArg (Path.mk anchor) List.dropLast_concat
  have hmade : makeDirectories ⟨anchor, parts ++ [part]⟩ present t = _ :=
    makeDirectories_of_parts hparts
  rw [hparent] at hmade
  exact hmade

/-- What is kept when one directory is made on the way to a path is kept when directories are made
for the path, also if not all of them can be made. -/
theorem makeDirectories_keeps {P : FileTree → Prop} (present : Bool)
    (hstep : ∀ above t t', above <+: path.parts → P t →
      t.makeDirectory ⟨path.anchor, above⟩ = .ok t' → P t') (h : P t) :
    P (makeDirectories path present t).2 := by
  obtain ⟨anchor, parts⟩ := path
  induction parts using List.reverseRecOn generalizing present with
  | nil =>
    rw [makeDirectories_nil]
    split
    · next made hmade => exact hstep [] t made List.prefix_rfl h hmade
    · exact h
  | append_singleton parts part ih =>
    rw [makeDirectories_concat]
    split
    · next made hmade => exact hstep _ t made List.prefix_rfl h hmade
    · have habove := ih true fun above t t' hbegins =>
        hstep above t t' (hbegins.trans (List.prefix_append _ _))
      split
      · next hrun =>
        rw [hrun] at habove
        exact habove
      · next above hrun =>
        rw [hrun] at habove
        split
        · next made hmade => exact hstep _ above made List.prefix_rfl habove hmade
        · exact habove
    · exact h

/-- A tree stays one when directories are made. -/
theorem IsTree.makeDirectories (h : t.IsTree) (path : Path) (present : Bool) :
    (makeDirectories path present t).2.IsTree :=
  makeDirectories_keeps present (fun _ _ _ _ htree hmade => htree.makeDirectory hmade) h

/-- A tree that differs from another one only in new directories, to which a path or paths above it
lead. -/
structure AddsDirectories (path : Path) (t t' : FileTree) : Prop where
  here : t'.here = t.here
  at? : ∀ location, t'.at? location = t.at? location ∨
    t.at? location = none ∧ t'.at? location = some .directory ∧
      ∃ above, above <+: path.parts ∧ t'.locate ⟨path.anchor, above⟩ = .ok location

/-- Directories stay. -/
theorem AddsDirectories.keeps (h : AddsDirectories path t t') {location : Location}
    (hdirectory : t.at? location = some .directory) : t'.at? location = some .directory := by
  rcases h.at? location with hsame | ⟨hnone, -, -⟩
  · rw [hsame, hdirectory]
  · rw [hdirectory] at hnone
    contradiction

/-- What is free behind new directories was free before. -/
theorem AddsDirectories.at?_eq_none (h : AddsDirectories path t t') {location : Location}
    (hnone : t'.at? location = none) : t.at? location = none := by
  rcases h.at? location with hsame | ⟨hbefore, -, -⟩
  · rw [← hsame, hnone]
  · exact hbefore

/-- One more directory on the way to a path. -/
theorem AddsDirectories.makeDirectory {start : FileTree} (h : AddsDirectories path start t)
    {above : List Text} (habove : above <+: path.parts)
    (hmade : t.makeDirectory ⟨path.anchor, above⟩ = .ok t') : AddsDirectories path start t' := by
  obtain ⟨place, hlocate, hnone, rfl⟩ := makeDirectory_eq_ok_iff.mp hmade
  have hfree : t.at? place ≠ some .directory := by
    rw [hnone]
    exact nofun
  have hkeeps {above : List Text} {location : Location}
      (h : t.locate ⟨path.anchor, above⟩ = .ok location) :
      (t.put place .directory).locate ⟨path.anchor, above⟩ = .ok location :=
    locate_mono h here_put fun _ => at?_put_of_directory hfree
  refine ⟨here_put.trans h.here, fun location => ?_⟩
  by_cases hplace : location = place
  · subst hplace
    exact Or.inr ⟨h.at?_eq_none hnone, at?_put_self (ne_nil_of_at?_ne hfree), above, habove,
      hkeeps hlocate⟩
  · rw [at?_put_of_ne hplace]
    refine (h.at? location).imp_right ?_
    rintro ⟨hbefore, hnow, other, hother, hleads⟩
    exact ⟨hbefore, hnow, other, hother, hkeeps hleads⟩

/-- Making directories adds directories and changes nothing else. -/
theorem addsDirectories_makeDirectories (path : Path) (present : Bool) (t : FileTree) :
    AddsDirectories path t (makeDirectories path present t).2 :=
  makeDirectories_keeps present (fun _ _ _ habove h hmade => h.makeDirectory habove hmade)
    ⟨rfl, fun _ => Or.inl rfl⟩

/-- A directory that must not be there is made last, behind those above it. -/
theorem exists_makeDirectory_of_absent (h : makeDirectories path false t = (.ok (), t')) :
    ∃ above, above.makeDirectory path = .ok t' ∧
      (above = t ∨ above = (makeDirectories path.parent true t).2) := by
  obtain ⟨anchor, parts⟩ := path
  rcases List.eq_nil_or_concat parts with rfl | ⟨parts, part, rfl⟩
  · rw [makeDirectories_nil] at h
    split at h
    · next made hmade => exact ⟨t, by rw [hmade, (Prod.mk.inj h).2], Or.inl rfl⟩
    · next fault _ => exact absurd (Prod.mk.inj h).1 (settle_absent fault)
  · rw [List.concat_eq_append, makeDirectories_concat] at h
    simp only [List.concat_eq_append, Path.parent, List.dropLast_concat]
    split at h
    · next made hmade => exact ⟨t, by rw [hmade, (Prod.mk.inj h).2], Or.inl rfl⟩
    · split at h
      · cases (Prod.mk.inj h).1
      · next above hrun =>
        split at h
        · next made hmade =>
          exact ⟨above, by rw [hmade, (Prod.mk.inj h).2], Or.inr (by rw [hrun])⟩
        · next fault _ => exact absurd (Prod.mk.inj h).1 (settle_absent fault)
    · next fault _ _ => exact absurd (Prod.mk.inj h).1 (settle_absent fault)

/-- A directory that must not be there is made where nothing stands, behind those above it. -/
theorem IsTree.exists_of_makeDirectories_absent (h : t.IsTree)
    (hmade : FileTree.makeDirectories path false t = (.ok (), t')) :
    ∃ base above, above.IsTree ∧ AddsDirectories path.parent t above ∧
      above.locate path = .ok base ∧ above.at? base = none ∧ t' = above.put base .directory := by
  obtain ⟨above, hlast, habove⟩ := exists_makeDirectory_of_absent hmade
  obtain ⟨base, hlocate, hnone, hput⟩ := makeDirectory_eq_ok_iff.mp hlast
  refine ⟨base, above, ?_, ?_, hlocate, hnone, hput⟩
  · rcases habove with rfl | rfl
    · exact h
    · exact h.makeDirectories _ _
  · rcases habove with rfl | rfl
    · exact ⟨rfl, fun _ => Or.inl rfl⟩
    · exact addsDirectories_makeDirectories _ _ _

/-! ### Below a directory -/

variable {base location : Location} {names : List Text} {name : Text} {root : Path}

/-- Where a directory is, none has to be made. -/
theorem makeDirectories_present (hlocate : t.locate path = .ok location)
    (hdirectory : t.at? location = some .directory) :
    makeDirectories path true t = (.ok (), t) := by
  have hmade : t.makeDirectory path = .error (.occupied path) := by
    simp only [FileTree.makeDirectory, hlocate, bind, Except.bind, hdirectory]
  have hhas : t.hasDirectory path = .ok true := by
    simp only [hasDirectory, find?, find, hlocate, bind, Except.bind, hdirectory]
    rfl
  have hsettle := settle_occupied hhas path
  obtain ⟨anchor, parts⟩ := path
  rcases List.eq_nil_or_concat parts with rfl | ⟨parts, part, rfl⟩
  · rw [makeDirectories_nil, hmade]
    exact congrArg (·, t) hsettle
  · rw [List.concat_eq_append] at hmade hsettle ⊢
    rw [makeDirectories_concat, hmade]
    exact congrArg (·, t) hsettle

/-- A tree that differs from another one only in directories along names below a location, all of
which are there. -/
structure HasDirectories (base : Location) (names : List Text) (t t' : FileTree) : Prop where
  here : t'.here = t.here
  made : ∀ first, first <+: names → t'.at? (base ++ first) = some .directory
  other : ∀ location, (∀ first, first <+: names → location ≠ base ++ first) →
    t'.at? location = t.at? location

/-- Directories stay. -/
theorem HasDirectories.keeps (h : HasDirectories base names t t')
    (hdirectory : t.at? location = some .directory) : t'.at? location = some .directory := by
  by_cases hplace : ∃ first, first <+: names ∧ location = base ++ first
  · obtain ⟨first, hfirst, rfl⟩ := hplace
    exact h.made first hfirst
  · rw [h.other location fun first hfirst heq => hplace ⟨first, hfirst, heq⟩, hdirectory]

/-- Behind the names along which there are directories, everything is as it was. -/
theorem HasDirectories.at?_concat (h : HasDirectories base names t t') (name : Text) :
    t'.at? (base ++ (names ++ [name])) = t.at? (base ++ (names ++ [name])) := by
  refine h.other _ fun first hfirst heq => ?_
  have hlength := hfirst.length_le
  rw [← List.append_cancel_left heq] at hlength
  simp only [List.length_append, List.length_singleton] at hlength
  omega

/-- Behind the names along which there are directories, a path leads to a further name. -/
theorem HasDirectories.locate_concat (h : HasDirectories base names t t')
    (hroot : t.locate root = .ok base) (hnames : LeadDown (names ++ [name]))
    (hpath : IsAddressable ⟨root.anchor, root.parts ++ (names ++ [name])⟩) :
    t'.locate ⟨root.anchor, root.parts ++ (names ++ [name])⟩ = .ok (base ++ (names ++ [name])) := by
  refine locate_below (locate_mono hroot h.here fun _ => h.keeps) hnames hpath fun first hfirst hne => ?_
  rcases List.prefix_concat_iff.mp hfirst with heq | hfirst
  · exact absurd heq hne
  · exact h.made first hfirst

/-- One directory more, behind the names along which there are directories. -/
theorem HasDirectories.makeDirectory (h : HasDirectories base names t t')
    (hroot : t.locate root = .ok base) (hnames : LeadDown (names ++ [name]))
    (hpath : IsAddressable ⟨root.anchor, root.parts ++ (names ++ [name])⟩)
    (hnone : t.at? (base ++ (names ++ [name])) = none) :
    ∃ made, t'.makeDirectory ⟨root.anchor, root.parts ++ (names ++ [name])⟩ = .ok made ∧
      HasDirectories base (names ++ [name]) t made := by
  have hfree : t'.at? (base ++ (names ++ [name])) = none := (h.at?_concat name).trans hnone
  have hempty : t'.at? (base ++ (names ++ [name])) ≠ some .directory := by
    rw [hfree]
    exact nofun
  refine ⟨_, makeDirectory_eq_ok_iff.mpr ⟨_, h.locate_concat hroot hnames hpath, hfree, rfl⟩,
    here_put.trans h.here, fun first hfirst => ?_, fun location hother => ?_⟩
  · rcases List.prefix_concat_iff.mp hfirst with rfl | hfirst
    · exact at?_put_self (ne_nil_of_at?_ne hempty)
    · exact at?_put_of_directory hempty (h.made first hfirst)
  · rw [at?_put_of_ne (hother _ List.prefix_rfl)]
    exact h.other location fun first hfirst =>
      hother first (hfirst.trans (List.prefix_append _ _))

/-- Where the directories along names are there, one further along can be made, if no file is there. -/
theorem exists_makeDirectories_concat (hroot : t.locate root = .ok base)
    (hthere : ∀ first, first <+: names → t.at? (base ++ first) = some .directory)
    (hnames : LeadDown (names ++ [name]))
    (hpath : IsAddressable ⟨root.anchor, root.parts ++ (names ++ [name])⟩)
    (hfree : ∀ content, t.at? (base ++ (names ++ [name])) ≠ some (.file content)) :
    ∃ t', FileTree.makeDirectories ⟨root.anchor, root.parts ++ (names ++ [name])⟩ true t =
      (.ok (), t') ∧ HasDirectories base (names ++ [name]) t t' := by
  have hsame : HasDirectories base names t t := ⟨rfl, hthere, fun _ _ => rfl⟩
  cases hlast : t.at? (base ++ (names ++ [name])) with
  | none =>
    obtain ⟨made, hmade, hnow⟩ := hsame.makeDirectory hroot hnames hpath hlast
    refine ⟨made, ?_, hnow⟩
    rw [← List.append_assoc] at hmade ⊢
    rw [makeDirectories_concat, hmade]
  | some entry =>
    cases entry with
    | file content => exact absurd hlast (hfree content)
    | directory =>
      refine ⟨t, makeDirectories_present (hsame.locate_concat hroot hnames hpath) hlast, rfl,
        fun first hfirst => ?_, fun _ _ => rfl⟩
      rcases List.prefix_concat_iff.mp hfirst with rfl | hfirst
      · exact hlast
      · exact hthere first hfirst

/-- Behind a directory that is missing nothing stands, and no directory can be made there yet. -/
theorem IsTree.makeDirectory_missing {above : List Text} (h : t.IsTree)
    (hroot : t.locate root = .ok base) (hnames : LeadDown names)
    (hpath : IsAddressable ⟨root.anchor, root.parts ++ names⟩)
    (hfree : ∀ first, first <+: names → ∀ content, t.at? (base ++ first) ≠ some (.file content))
    (habove : above <+: names) (hne : above ≠ names)
    (hmissing : t.at? (base ++ above) ≠ some .directory) :
    t.at? (base ++ names) = none ∧
      t.makeDirectory ⟨root.anchor, root.parts ++ names⟩ =
        .error (.missing ⟨root.anchor, root.parts ++ names⟩) := by
  have hnone : t.at? (base ++ above) = none := by
    cases hentry : t.at? (base ++ above) with
    | none => rfl
    | some entry =>
      cases entry with
      | file content => exact absurd hentry (hfree above habove content)
      | directory => exact absurd hentry hmissing
  constructor
  · obtain ⟨rest, rfl⟩ := habove
    rw [← List.append_assoc]
    refine h.at?_append_eq_none hmissing ?_
    rintro rfl
    exact hne (List.append_nil above).symm
  · rw [FileTree.makeDirectory, locate_append hroot hpath,
      foldlM_step_missing hnames hfree habove hne hnone]
    rfl

/-- Below a directory all directories along names can be made, if no file is in the way. -/
theorem IsTree.exists_makeDirectories_below (h : t.IsTree) (hroot : t.locate root = .ok base)
    (hbase : t.at? base = some .directory) (hnames : LeadDown names)
    (hpath : IsAddressable ⟨root.anchor, root.parts ++ names⟩)
    (hfree : ∀ first, first <+: names → ∀ content, t.at? (base ++ first) ≠ some (.file content)) :
    ∃ t', FileTree.makeDirectories ⟨root.anchor, root.parts ++ names⟩ true t = (.ok (), t') ∧
      HasDirectories base names t t' := by
  induction names using List.reverseRecOn with
  | nil =>
    rw [List.append_nil]
    refine ⟨t, makeDirectories_present hroot hbase, rfl, fun first hfirst => ?_, fun _ _ => rfl⟩
    rw [List.prefix_nil.mp hfirst, List.append_nil, hbase]
  | append_singleton names name ih =>
    have hshorter : names <+: names ++ [name] := List.prefix_append _ _
    by_cases hall : ∀ first, first <+: names → t.at? (base ++ first) = some .directory
    · -- All directories but the last one are there.
      exact exists_makeDirectories_concat hroot hall hnames hpath (hfree _ List.prefix_rfl)
    · -- A directory on the way is missing, so nothing stands behind it.
      simp only [not_forall] at hall
      obtain ⟨above, habove, hmissing⟩ := hall
      have hne : above ≠ names ++ [name] := by
        rintro rfl
        exact absurd habove.length_le (by simp)
      obtain ⟨hlast, hlater⟩ := h.makeDirectory_missing hroot hnames hpath hfree
        (habove.trans hshorter) hne hmissing
      obtain ⟨between, hbetween, hthere⟩ := ih (fun n hn => hnames n (List.mem_append_left _ hn))
        (hpath.of_isPrefix ((List.prefix_append_right_inj _).mpr hshorter))
        fun first hfirst => hfree first (hfirst.trans hshorter)
      obtain ⟨made, hmade, hnow⟩ := hthere.makeDirectory hroot hnames hpath hlast
      refine ⟨made, ?_, hnow⟩
      rw [← List.append_assoc] at hmade hlater ⊢
      rw [makeDirectories_concat, hlater]
      simp only [hbetween, hmade]

/-- A tree that differs from another one only in a file along names below a location, and in the
directories along the names before the last one. -/
structure HasFile (base : Location) (names : List Text) (text : Text) (t t' : FileTree) : Prop where
  isTree : t'.IsTree
  here : t'.here = t.here
  file : t'.at? (base ++ names) = some (.file (.text text))
  made : ∀ first, first <+: names → first ≠ names → t'.at? (base ++ first) = some .directory
  other : ∀ location, (∀ first, first <+: names → location ≠ base ++ first) →
    t'.at? location = t.at? location

/-- Directories stay where the file takes the place of none. -/
theorem HasFile.keeps {text : Text} (h : HasFile base names text t t')
    (hlast : t.at? (base ++ names) ≠ some .directory) (hdirectory : t.at? location = some .directory) :
    t'.at? location = some .directory := by
  by_cases hplace : ∃ first, first <+: names ∧ location = base ++ first
  · obtain ⟨first, hfirst, rfl⟩ := hplace
    refine h.made first hfirst ?_
    rintro rfl
    exact hlast hdirectory
  · rw [h.other location fun first hfirst heq => hplace ⟨first, hfirst, heq⟩, hdirectory]

/-- With a file more there stand the file, its directories, and what stood there before. -/
theorem HasFile.at?_eq_some_iff {text : Text} (h : HasFile base names text t t')
    (hfree : ∀ first, first <+: names → ∀ content, t.at? (base ++ first) ≠ some (.file content))
    (hlast : t.at? (base ++ names) ≠ some .directory) (others : List Text) (entry : Entry) :
    t'.at? (base ++ others) = some entry ↔
      others = names ∧ entry = .file (.text text) ∨
      (others <+: names ∧ others ≠ names) ∧ entry = .directory ∨
      t.at? (base ++ others) = some entry := by
  by_cases hfile : others = names
  · have hnone : t.at? (base ++ others) ≠ some entry := by
      rw [hfile]
      cases entry with
      | file content => exact hfree names List.prefix_rfl content
      | directory => exact hlast
    simp [hfile, h.file, hfile ▸ hnone, eq_comm]
  · by_cases hbegins : others <+: names
    · have hbefore : t.at? (base ++ others) = some entry → entry = .directory := by
        cases entry with
        | file content => exact fun hat => absurd hat (hfree others hbegins content)
        | directory => exact fun _ => rfl
      rw [h.made others hbegins hfile, Option.some_inj]
      constructor
      · exact fun heq => Or.inr (Or.inl ⟨⟨hbegins, hfile⟩, heq.symm⟩)
      · rintro (⟨hsame, -⟩ | ⟨-, heq⟩ | hat)
        · exact absurd hsame hfile
        · exact heq.symm
        · exact (hbefore hat).symm
    · have hsame : t'.at? (base ++ others) = t.at? (base ++ others) := by
        refine h.other _ fun first hfirst heq => hbegins ?_
        rwa [List.append_cancel_left heq]
      simp [hsame, hfile, hbegins]

/-- Below a directory a file can be written if no file is in the way of its directories and no
directory in its own. -/
theorem IsTree.exists_writeFile_below (h : t.IsTree) (hroot : t.locate root = .ok base)
    (hbase : t.at? base = some .directory) (hsome : names ≠ []) (hnames : LeadDown names)
    (hpath : IsAddressable ⟨root.anchor, root.parts ++ names⟩)
    (hfree : ∀ first, first <+: names → first ≠ names → ∀ content,
      t.at? (base ++ first) ≠ some (.file content))
    (hlast : t.at? (base ++ names) ≠ some .directory) (text : Text) :
    ∃ t', writeFile ⟨root.anchor, root.parts ++ names⟩ text t = (.ok (), t') ∧
      HasFile base names text t t' := by
  obtain ⟨above, name, rfl⟩ := (List.eq_nil_or_concat names).resolve_left hsome
  rw [List.concat_eq_append] at *
  have hshorter : above <+: above ++ [name] := List.prefix_append _ _
  have hne {first : List Text} (hfirst : first <+: above) : first ≠ above ++ [name] := by
    rintro rfl
    exact absurd hfirst.length_le (by simp)
  obtain ⟨between, hmade, hthere⟩ := h.exists_makeDirectories_below hroot hbase
    (fun n hn => hnames n (List.mem_append_left _ hn))
    (hpath.of_isPrefix ((List.prefix_append_right_inj _).mpr hshorter))
    fun first hfirst => hfree first (hfirst.trans hshorter) (hne hfirst)
  have hempty : between.at? (base ++ (above ++ [name])) ≠ some .directory := by
    rwa [hthere.at?_concat name]
  have hwrite : between.writeText ⟨root.anchor, root.parts ++ (above ++ [name])⟩ text =
      .ok (between.put (base ++ (above ++ [name])) (.file (.text text))) :=
    writeText_eq_ok_iff.mpr ⟨_, hthere.locate_concat hroot hnames hpath, hempty, rfl⟩
  have htree : (FileTree.makeDirectories ⟨root.anchor, root.parts ++ above⟩ true t).2.IsTree :=
    h.makeDirectories _ true
  have hput : (between.put (base ++ above ++ [name]) (.file (.text text))).IsTree := by
    rw [hmade] at htree
    exact htree.put (hthere.made above List.prefix_rfl) (by rwa [List.append_assoc])
  rw [List.append_assoc] at hput
  refine ⟨_, ?_, hput, here_put.trans hthere.here, at?_put_self (ne_nil_of_at?_ne hempty), ?_, ?_⟩
  · have hparent : Path.parent ⟨root.anchor, root.parts ++ (above ++ [name])⟩ =
        ⟨root.anchor, root.parts ++ above⟩ := by
      rw [Path.parent, ← List.append_assoc, List.dropLast_concat]
    rw [writeFile, hparent, Action.bind_run, hmade]
    simp only [Action.changing, hwrite]
  · intro first hfirst hproper
    have hfirst := (List.prefix_concat_iff.mp hfirst).resolve_left hproper
    exact at?_put_of_directory hempty (hthere.made first hfirst)
  · intro location hother
    rw [at?_put_of_ne (hother _ List.prefix_rfl)]
    exact hthere.other location fun first hfirst => hother first (hfirst.trans hshorter)

end Stencil.FileTree
