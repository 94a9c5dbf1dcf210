import Stencil.Proofs.FileTree.Directories

/-!
# Ways in a file tree

Which places a path comes to is decided by its parts and by the directory at hand. What it leads to
depends on what stands at these places, and on nothing else in the tree. So files that are written
do not matter to a path that comes to none of the places where something changes.
-/

namespace Stencil.FileTree

variable {t t' : FileTree} {location other : Location} {entry : Entry} {path : Path}

/-! ### The places of a path -/

/-- Where a part leads from a directory. -/
def follow (location : Location) (part : Text) : Location :=
  if part = up then location.dropLast else location ++ [part]

/-- Where a path leads if there are directories along it. -/
def place (t : FileTree) (path : Path) : Location := path.parts.foldl follow (t.start path)

/-- The places that a path comes to, which are those of the path and of the paths above it. -/
def way (t : FileTree) (path : Path) : List Location :=
  path.parts.inits.map fun above => above.foldl follow (t.start path)

/-- A path comes to where the beginnings of its parts lead. -/
theorem mem_way_iff :
    location ∈ t.way path ↔
      ∃ above, above <+: path.parts ∧ location = above.foldl follow (t.start path) := by
  simp only [way, List.mem_map, List.mem_inits, eq_comm]

/-- A path comes to its own place. -/
theorem place_mem_way (t : FileTree) (path : Path) : t.place path ∈ t.way path :=
  mem_way_iff.mpr ⟨path.parts, List.prefix_rfl, rfl⟩

/-- The places of a path depend on the directory at hand only. -/
theorem place_eq_of_here (h : t'.here = t.here) (path : Path) : t'.place path = t.place path := by
  rw [place, place, start, start, h]

/-- Where parts lead there is the place that they are followed to. -/
theorem Leads.eq_foldl {parts : List Text} (h : t.Leads location parts other) :
    other = parts.foldl follow location := by
  induction h with
  | here => rfl
  | up _ _ ih => rw [ih, List.foldl_cons, follow, if_pos rfl]
  | down _ hpart _ _ ih => rw [ih, List.foldl_cons, follow, if_neg hpart]

/-- A path leads to its place, if it leads anywhere. -/
theorem eq_place_of_locate (h : t.locate path = .ok location) : location = t.place path :=
  (locate_eq_ok_iff.mp h).2.eq_foldl

/-- Nothing is found where a path leads nowhere. -/
theorem find_of_locate_error {fault : Fault} (h : t.locate path = .error fault) :
    t.find path = .error fault := by
  rw [find, h]
  rfl

/-- What stands where a path leads is found. -/
theorem find_of_at? (h : t.locate path = .ok location) (hentry : t.at? location = some entry) :
    t.find path = .ok (location, entry) := by
  simp only [find, h, bind, Except.bind, hentry]

/-- Nothing is found where a path leads to nothing. -/
theorem find_of_at?_eq_none (h : t.locate path = .ok location) (hnone : t.at? location = none) :
    t.find path = .error (.missing path) := by
  simp only [find, h, bind, Except.bind, hnone]

/-- A path is found to lead to what stands where it leads. -/
theorem find_eq_ok_iff :
    t.find path = .ok (location, entry) ↔
      t.locate path = .ok location ∧ t.at? location = some entry := by
  refine ⟨fun hfound => ?_, fun h => find_of_at? h.1 h.2⟩
  cases hlocate : t.locate path with
  | error fault =>
    rw [find_of_locate_error hlocate] at hfound
    contradiction
  | ok place =>
    cases hat : t.at? place with
    | none =>
      rw [find_of_at?_eq_none hlocate hat] at hfound
      contradiction
    | some found =>
      rw [find_of_at? hlocate hat] at hfound
      obtain ⟨rfl, rfl⟩ := Prod.mk.inj (Except.ok.inj hfound)
      exact ⟨rfl, hat⟩

/-- What a file holds that is found. -/
theorem content_of_find {held : Content} (h : t.find path = .ok (location, .file held)) :
    t.content path = .ok held := by
  rw [content, h]
  rfl

/-- Names that lead down are put behind the place from which they are followed. -/
theorem foldl_follow_of_leadDown {names : List Text} (h : ∀ name ∈ names, name ≠ up)
    (location : Location) : names.foldl follow location = location ++ names := by
  induction names generalizing location with
  | nil => exact (List.append_nil location).symm
  | cons name names ih =>
    obtain ⟨hname, hnames⟩ := List.forall_mem_cons.mp h
    rw [List.foldl_cons, follow, if_neg hname, ih hnames, ← List.append_cons]

/-- The place of a path that goes on from another one with names that lead down. -/
theorem place_append {names : List Text} (h : ∀ name ∈ names, name ≠ up) (t : FileTree)
    (path : Path) : t.place ⟨path.anchor, path.parts ++ names⟩ = t.place path ++ names := by
  have hstart : t.start ⟨path.anchor, path.parts ++ names⟩ = t.start path := rfl
  rw [place, hstart, List.foldl_append, foldl_follow_of_leadDown h]
  rfl

/-- A path that goes on from another one with names that lead down comes to the places of the other
one and to places below. -/
theorem mem_way_append {names : List Text} (h : ∀ name ∈ names, name ≠ up)
    (hmem : location ∈ t.way ⟨path.anchor, path.parts ++ names⟩) :
    location ∈ t.way path ∨ ∃ first, first <+: names ∧ location = t.place path ++ first := by
  obtain ⟨above, habove, rfl⟩ := mem_way_iff.mp hmem
  rcases List.prefix_or_prefix_of_prefix habove (List.prefix_append _ _) with hshort | hlong
  · exact Or.inl (mem_way_iff.mpr ⟨above, hshort, rfl⟩)
  · obtain ⟨first, rfl⟩ := hlong
    have hfirst : first <+: names := (List.prefix_append_right_inj _).mp habove
    refine Or.inr ⟨first, hfirst, ?_⟩
    rw [List.foldl_append, foldl_follow_of_leadDown fun name hname => h name (hfirst.subset hname)]
    rfl

/-- Parts that lead from a directory to a directory lead through directories. -/
theorem Leads.at?_foldl {parts : List Text} (h : t.Leads location parts other)
    (hother : t.at? other = some .directory) {above : List Text} (habove : above <+: parts) :
    t.at? (above.foldl follow location) = some .directory := by
  induction h generalizing above with
  | here =>
    rw [List.prefix_nil.mp habove]
    exact hother
  | up hdirectory _ ih =>
    cases above with
    | nil => exact hdirectory
    | cons part above =>
      obtain ⟨rfl, hrest⟩ := List.cons_prefix_cons.mp habove
      rw [List.foldl_cons, follow, if_pos rfl]
      exact ih hother hrest
  | down hdirectory hpart _ _ ih =>
    cases above with
    | nil => exact hdirectory
    | cons part above =>
      obtain ⟨rfl, hrest⟩ := List.cons_prefix_cons.mp habove
      rw [List.foldl_cons, follow, if_neg hpart]
      exact ih hother hrest

/-- A path that leads to a directory comes to directories only. -/
theorem at?_of_mem_way (hpath : t.locate path = .ok location)
    (hdirectory : t.at? location = some .directory) (hother : other ∈ t.way path) :
    t.at? other = some .directory := by
  obtain ⟨above, habove, rfl⟩ := mem_way_iff.mp hother
  exact (locate_eq_ok_iff.mp hpath).2.at?_foldl hdirectory habove

/-! ### Paths that can be looked for in every tree -/

/-- No part that leads down is too long. -/
theorem Leads.forall_short {parts : List Text} (h : t.Leads location parts other) :
    ∀ part ∈ parts, part = FileTree.up ∨ Text.byteCount part ≤ nameLimit := by
  induction h with
  | here => exact List.forall_mem_nil _
  | up _ _ ih => exact List.forall_mem_cons.mpr ⟨Or.inl rfl, ih⟩
  | down _ _ hshort _ ih => exact List.forall_mem_cons.mpr ⟨Or.inr hshort, ih⟩

/-- A part that is not too long is followed without the fault that a name is too long. -/
theorem step_ne_nameTooLong {part : Text} (h : part = up ∨ Text.byteCount part ≤ nameLimit)
    (long : Path) : t.step path location part ≠ .error (.nameTooLong long) := by
  unfold step
  split
  · simp
  · simp
  · rcases h with rfl | hshort
    · simp [up]
    · rw [if_neg (Nat.not_lt.mpr hshort)]
      split <;> simp

/-- So are parts of which none is too long. -/
theorem foldlM_step_ne_nameTooLong {parts : List Text}
    (h : ∀ part ∈ parts, part = up ∨ Text.byteCount part ≤ nameLimit) (long : Path) :
    parts.foldlM (t.step path) location ≠ .error (.nameTooLong long) := by
  induction parts generalizing location with
  | nil => exact nofun
  | cons part parts ih =>
    obtain ⟨hpart, hrest⟩ := List.forall_mem_cons.mp h
    rw [List.foldlM_cons]
    cases hstep : t.step path location part with
    | ok next => exact ih hrest
    | error fault => exact fun heq => step_ne_nameTooLong hpart long (hstep.trans heq)

/-- A path that leads somewhere in one tree is not too long to be looked for in another one. -/
theorem find_ne_nameTooLong (h : t.locate path = .ok location) (long : Path) :
    t'.find path ≠ .error (.nameTooLong long) := by
  obtain ⟨⟨hnull, hshort⟩, hleads⟩ := locate_eq_ok_iff.mp h
  have hlocate : t'.locate path ≠ .error (.nameTooLong long) := by
    rw [locate, if_neg (by simpa using hnull), if_neg (Nat.not_lt.mpr hshort)]
    exact foldlM_step_ne_nameTooLong hleads.forall_short long
  cases hplace : t'.locate path with
  | error fault =>
    rw [find_of_locate_error hplace]
    intro heq
    exact hlocate (hplace.trans (congrArg Except.error (Except.error.inj heq)))
  | ok place =>
    cases hentry : t'.at? place with
    | none =>
      rw [find_of_at?_eq_none hplace hentry]
      simp
    | some entry =>
      rw [find_of_at? hplace hentry]
      simp

/-! ### Trees that agree along a way -/

/-- Parts are followed alike in trees that agree where they lead. -/
theorem foldlM_step_congr {parts : List Text}
    (h : ∀ above, above <+: parts →
      t'.at? (above.foldl follow location) = t.at? (above.foldl follow location)) :
    parts.foldlM (t'.step path) location = parts.foldlM (t.step path) location := by
  induction parts generalizing location with
  | nil => rfl
  | cons part parts ih =>
    have hstep : t'.step path location part = t.step path location part := by
      have hfirst : t'.at? location = t.at? location := h [] List.nil_prefix
      rw [step, step, hfirst]
    rw [List.foldlM_cons, List.foldlM_cons, hstep]
    cases hnext : t.step path location part with
    | error fault => rfl
    | ok next =>
      have hfollow : next = follow location part := by
        obtain ⟨-, ⟨rfl, rfl⟩ | ⟨hpart, -, rfl⟩⟩ := step_eq_ok_iff.mp hnext
        · exact (if_pos rfl).symm
        · exact (if_neg hpart).symm
      subst hfollow
      exact ih fun above habove =>
        h (part :: above) (List.cons_prefix_cons.mpr ⟨rfl, habove⟩)

variable (hhere : t'.here = t.here) (hway : ∀ l ∈ t.way path, t'.at? l = t.at? l)

include hhere hway

/-- A path leads to the same place in trees that agree along it. -/
theorem locate_congr : t'.locate path = t.locate path := by
  have hstart : t'.start path = t.start path := by rw [start, start, hhere]
  have hfold : path.parts.foldlM (t'.step path) (t'.start path) =
      path.parts.foldlM (t.step path) (t.start path) := by
    rw [hstart]
    exact foldlM_step_congr fun above habove => hway _ (mem_way_iff.mpr ⟨above, habove, rfl⟩)
  rw [locate, locate]
  split
  · rfl
  · split
    · rfl
    · exact hfold

/-- A path leads to the same entry in trees that agree along it. -/
theorem find_congr : t'.find path = t.find path := by
  have hlocate' := locate_congr hhere hway
  cases hlocate : t.locate path with
  | error fault =>
    rw [find_of_locate_error hlocate, find_of_locate_error (hlocate'.trans hlocate)]
  | ok location =>
    have hsame : t'.at? location = t.at? location := by
      rw [eq_place_of_locate hlocate]
      exact hway _ (place_mem_way t path)
    cases hat : t.at? location with
    | none =>
      rw [find_of_at?_eq_none hlocate hat,
        find_of_at?_eq_none (hlocate'.trans hlocate) (hsame.trans hat)]
    | some entry =>
      rw [find_of_at? hlocate hat, find_of_at? (hlocate'.trans hlocate) (hsame.trans hat)]

/-- A path leads to a file in both of two trees that agree along it. -/
theorem hasFile_congr : t'.hasFile path = t.hasFile path := by
  rw [hasFile, hasFile, find?, find?, find_congr hhere hway]

/-- A path leads to the same text in trees that agree along it. -/
theorem readText_congr : t'.readText path = t.readText path := by
  rw [readText, readText, content, content, find_congr hhere hway]

end Stencil.FileTree
