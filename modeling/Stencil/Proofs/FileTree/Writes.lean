import Stencil.Proofs.FileTree.Ways
import Mathlib.Data.List.Nodup

/-!
# Files that are written one after the other

Each file is written with the directories above it as needed. If no two of the files have the same
place, all of them are there in the end, and besides them there are only new directories on the way
to them. All else is as it was.
-/

namespace Stencil.FileTree

variable {t t' t'' : FileTree} {location : Location} {entry : Entry} {path : Path}

/-! ### File systems -/

/-- A name that a file or a directory can have. -/
def IsName (name : Text) : Prop := name ≠ [] ∧ name ≠ ['.'] ∧ name ≠ up ∧ '/' ∉ name

instance (name : Text) : Decidable (IsName name) :=
  inferInstanceAs (Decidable (_ ∧ _ ∧ _ ∧ _))

/-- A tree as there is one on a disk: what is in it stands in directories, at each place there is
one thing, and the names are such as files have. -/
structure IsFileSystem (t : FileTree) : Prop where
  tree : t.IsTree
  nodup : (t.entries.map (·.1)).Nodup
  names : ∀ e ∈ t.entries, ∀ name ∈ e.1, IsName name

/-- What is at a place is what the entries say. -/
theorem mem_entries_of_at? (h : t.at? location = some entry) (hlocation : location ≠ []) :
    (location, entry) ∈ t.entries := by
  rw [at?_of_ne_nil hlocation] at h
  obtain ⟨e, hfind, rfl⟩ := Option.map_eq_some_iff.mp h
  have hplace : e.1 = location := by simpa using List.find?_some hfind
  exact hplace ▸ List.mem_of_find?_eq_some hfind

/-- What the entries say is at its place. -/
theorem IsFileSystem.at?_of_mem (h : t.IsFileSystem) (hmem : (location, entry) ∈ t.entries)
    (hlocation : location ≠ []) : t.at? location = some entry := by
  rw [at?_of_ne_nil hlocation]
  cases hfind : t.entries.find? (·.1 == location) with
  | none => simpa using List.find?_eq_none.mp hfind _ hmem
  | some e =>
    have hplace : e.1 = location := by simpa using List.find?_some hfind
    have hsame : e = (location, entry) :=
      List.inj_on_of_nodup_map h.nodup (List.mem_of_find?_eq_some hfind) hmem hplace
    rw [hsame]
    rfl

/-- The names that lead to something are such as files have. -/
theorem IsFileSystem.isName_of_at? (h : t.IsFileSystem) (hat : t.at? location = some entry) :
    ∀ name ∈ location, IsName name := by
  by_cases hlocation : location = []
  · subst hlocation
    exact List.forall_mem_nil _
  · exact h.names _ (mem_entries_of_at? hat hlocation)

/-- Following parts of a path that was read from a text leads to names such as files have. -/
theorem isName_foldl_follow {anchor : Anchor} {parts : List Text}
    (hpath : Path.IsNormal ⟨anchor, parts⟩) (hlocation : ∀ name ∈ location, IsName name) :
    ∀ name ∈ parts.foldl follow location, IsName name := by
  induction parts generalizing location with
  | nil => exact hlocation
  | cons part parts ih =>
    obtain ⟨⟨hempty, hpoint, hslash⟩, hparts⟩ := List.forall_mem_cons.mp hpath
    refine ih hparts fun name hname => ?_
    unfold follow at hname
    split at hname
    · exact hlocation name (List.mem_of_mem_dropLast hname)
    · next hup =>
      rcases List.mem_append.mp hname with hname | hname
      · exact hlocation name hname
      · rw [List.mem_singleton.mp hname]
        exact ⟨hempty, hpoint, hup, hslash⟩

/-- The names that lead to the place of a path that was read from a text are such as files have. -/
theorem IsFileSystem.isName_place (h : t.IsFileSystem) (hpath : path.IsNormal) :
    ∀ name ∈ t.place path, IsName name := by
  refine isName_foldl_follow hpath ?_
  unfold start
  split
  · exact List.forall_mem_nil _
  · exact h.isName_of_at? h.tree.here

/-- A file system stays one when something is put where it can stand. -/
theorem IsFileSystem.put (h : t.IsFileSystem) (htree : (t.put location entry).IsTree)
    (hlocation : ∀ name ∈ location, IsName name) : (t.put location entry).IsFileSystem := by
  refine ⟨htree, ?_, ?_⟩
  · unfold FileTree.put
    split
    · have hkeys : (t.entries.map fun e => if e.1 == location then (location, entry) else e).map
          (·.1) = t.entries.map (·.1) := by
        rw [List.map_map]
        refine List.map_congr_left fun e _ => ?_
        by_cases he : e.1 = location <;> simp [he]
      dsimp only
      rw [hkeys]
      exact h.nodup
    · next hnone =>
      rw [List.map_append, List.nodup_append]
      refine ⟨h.nodup, List.nodup_singleton _, ?_⟩
      rintro place hplace _ hlast rfl
      obtain ⟨e, he, rfl⟩ := List.mem_map.mp hplace
      exact hnone (List.any_eq_true.mpr ⟨e, he, by simpa using hlast⟩)
  · unfold FileTree.put
    split
    · intro e he
      obtain ⟨before, hbefore, rfl⟩ := List.mem_map.mp he
      split
      · exact hlocation
      · exact h.names before hbefore
    · intro e he
      rcases List.mem_append.mp he with he | he
      · exact h.names e he
      · rw [List.mem_singleton.mp he]
        exact hlocation

/-- A file system stays one when a directory is made. -/
theorem IsFileSystem.makeDirectory (h : t.IsFileSystem) (hpath : path.IsNormal)
    (hmade : t.makeDirectory path = .ok t') : t'.IsFileSystem := by
  have htree := h.tree.makeDirectory hmade
  obtain ⟨place, hlocate, -, rfl⟩ := makeDirectory_eq_ok_iff.mp hmade
  refine h.put htree ?_
  rw [eq_place_of_locate hlocate]
  exact h.isName_place hpath

/-- A file is written behind the directories above it. -/
theorem exists_of_writeFile {s : Text} (h : writeFile path s t = (.ok (), t')) :
    ∃ between, (makeDirectories path.parent true t).2 = between ∧
      AddsDirectories path.parent t between ∧ between.locate path = .ok (t.place path) ∧
      between.at? (t.place path) ≠ some .directory ∧
      t' = between.put (t.place path) (.file (.text s)) := by
  obtain ⟨_, between, hmade, hwrite⟩ := Action.bind_eq_ok h
  have hadds := addsDirectories_makeDirectories path.parent true t
  rw [hmade] at hadds
  obtain ⟨location, hlocate, hnone, rfl⟩ := writeText_eq_ok_iff.mp (Action.changing_eq_ok hwrite)
  have hplace : location = t.place path :=
    (eq_place_of_locate hlocate).trans (place_eq_of_here hadds.here path)
  subst hplace
  exact ⟨between, by rw [hmade], hadds, hlocate, hnone, rfl⟩

/-- A file system stays one when a file is written. -/
theorem IsFileSystem.writeFile (h : t.IsFileSystem) (hpath : path.IsNormal) {s : Text}
    (hrun : FileTree.writeFile path s t = (.ok (), t')) : t'.IsFileSystem := by
  obtain ⟨between, hmade, hadds, hlocate, hnone, rfl⟩ := exists_of_writeFile hrun
  have hbetween : between.IsFileSystem := by
    rw [← hmade]
    refine makeDirectories_keeps true (fun above t t' habove hkept hone => ?_) h
    refine hkept.makeDirectory (fun part hpart => hpath part ?_) hone
    exact List.mem_of_mem_dropLast (habove.subset hpart)
  obtain ⟨above, name, hplace, hparent⟩ := hbetween.tree.exists_of_locate hlocate hnone
  refine hbetween.put ?_ (h.isName_place hpath)
  rw [hplace] at hnone ⊢
  exact hbetween.tree.put hparent hnone

/-! ### Writing files -/

/-- A tree that differs from another one in files that were written, and in new directories on the
way to them. -/
structure Wrote (files : List (Path × Text)) (t t' : FileTree) : Prop where
  here : t'.here = t.here
  keeps : ∀ location, t.at? location = some .directory → t'.at? location = some .directory
  file : ∀ f ∈ files, t'.locate f.1 = .ok (t.place f.1) ∧
    t'.at? (t.place f.1) = some (.file (.text f.2))
  other : ∀ location, (∀ f ∈ files, location ≠ t.place f.1) →
    t'.at? location = t.at? location ∨
      t.at? location = none ∧ t'.at? location = some .directory ∧ ∃ f ∈ files, location ∈ t.way f.1

/-- A tree in which nothing was written. -/
theorem wrote_nil (t : FileTree) : Wrote [] t t :=
  ⟨rfl, fun _ h => h, List.forall_mem_nil _, fun _ _ => Or.inl rfl⟩

/-- One file more, at a place where none of the others was written. -/
theorem Wrote.writeFile {files : List (Path × Text)} (h : Wrote files t t') {s : Text}
    (hnew : ∀ f ∈ files, t.place f.1 ≠ t.place path)
    (hrun : FileTree.writeFile path s t' = (.ok (), t'')) :
    Wrote (files ++ [(path, s)]) t t'' := by
  obtain ⟨between, -, hadds, hlocate, hnone, rfl⟩ := exists_of_writeFile hrun
  rw [place_eq_of_here h.here] at hlocate hnone ⊢
  have hkeeps (location : Location) (hdirectory : between.at? location = some .directory) :
      (between.put (t.place path) (.file (.text s))).at? location = some .directory :=
    at?_put_of_directory hnone hdirectory
  refine ⟨here_put.trans (hadds.here.trans h.here), fun location hdirectory => ?_, ?_, ?_⟩
  · exact hkeeps _ (hadds.keeps (h.keeps _ hdirectory))
  · intro f hf
    rcases List.mem_append.mp hf with hf | hf
    · obtain ⟨hleads, hfile⟩ := h.file f hf
      refine ⟨locate_mono hleads (here_put.trans hadds.here) fun l hl => hkeeps l (hadds.keeps hl),
        ?_⟩
      rw [at?_put_of_ne (hnew f hf)]
      rcases hadds.at? (t.place f.1) with hsame | ⟨hfree, -⟩
      · rw [hsame, hfile]
      · rw [hfile] at hfree
        contradiction
    · rw [List.mem_singleton.mp hf]
      exact ⟨locate_mono hlocate here_put fun l hl => hkeeps l hl,
        at?_put_self (ne_nil_of_at?_ne hnone)⟩
  · intro location hother
    rw [List.forall_mem_append] at hother
    rw [at?_put_of_ne (hother.2 _ List.mem_cons_self)]
    rcases hadds.at? location with hsame | ⟨hfree, hmade, above, habove, hleads⟩
    · rw [hsame]
      refine (h.other location hother.1).imp_right ?_
      rintro ⟨hbefore, hnow, f, hf, hway⟩
      exact ⟨hbefore, hnow, f, List.mem_append_left _ hf, hway⟩
    · have hbefore : t.at? location = none := by
        rcases h.other location hother.1 with hsame | ⟨hbefore, -⟩
        · rw [← hsame, hfree]
        · exact hbefore
      refine Or.inr ⟨hbefore, hmade, (path, s), List.mem_append_right _ List.mem_cons_self, ?_⟩
      refine mem_way_iff.mpr ⟨above, habove.trans (List.dropLast_prefix _), ?_⟩
      rw [eq_place_of_locate hleads, place, start, hadds.here, h.here]
      rfl

/-- A place that files leave as it is: a directory is there, or none of them goes there and none has
to make a directory there. -/
def Spares (t : FileTree) (paths : List Path) (location : Location) : Prop :=
  t.at? location = some .directory ∨
    (∀ path ∈ paths, location ≠ t.place path) ∧
      (t.at? location = none → ∀ path ∈ paths, location ∉ t.way path)

instance (t : FileTree) (paths : List Path) (location : Location) :
    Decidable (t.Spares paths location) :=
  inferInstanceAs (Decidable (_ ∨ _ ∧ _))

/-- Neither of two places is the other one or lies below it. -/
def Apart (location other : Location) : Prop := ¬location <+: other ∧ ¬other <+: location

instance (location other : Location) : Decidable (Apart location other) :=
  inferInstanceAs (Decidable (_ ∧ _))

/-- What is below a place is left as it is by files that are below another one. -/
theorem spares_of_apart {paths : List Path} {base root : Location} (hapart : Apart base root)
    (hpaths : ∀ path ∈ paths, base <+: t.place path) (hroot : root <+: location)
    (hthere : t.at? location ≠ none) : t.Spares paths location := by
  refine Or.inr ⟨fun path hpath hsame => ?_, fun hnone => absurd hnone hthere⟩
  rcases List.prefix_or_prefix_of_prefix (hsame ▸ hpaths path hpath) hroot with hbelow | hbelow
  · exact hapart.1 hbelow
  · exact hapart.2 hbelow

/-- What files leave as it is stays when some of them are written. -/
theorem Wrote.at?_of_spares {files : List (Path × Text)} (h : Wrote files t t')
    {paths : List Path} (hfiles : ∀ f ∈ files, f.1 ∈ paths) (hspares : t.Spares paths location) :
    t'.at? location = t.at? location := by
  rcases hspares with hdirectory | ⟨hplace, hway⟩
  · rw [hdirectory, h.keeps _ hdirectory]
  · rcases h.other location fun f hf => hplace _ (hfiles f hf) with hsame | ⟨hnone, -, f, hf, hmem⟩
    · exact hsame
    · exact absurd hmem (hway hnone _ (hfiles f hf))

end Stencil.FileTree
