import Stencil.FileTree.Basic
import Stencil.Proofs.Path
import Mathlib.Data.List.Infix

/-!
# Places in a file tree

What stands at a location after something was put somewhere, and where paths lead. A path that leads
somewhere goes through directories, so it leads there as long as these directories stay.
-/

namespace Stencil

/-- Two texts together take the bytes of both. -/
theorem Text.byteCount_append (s r : Text) :
    byteCount (s ++ r) = byteCount s + byteCount r := by
  have hshift (n : Nat) (r : Text) :
      r.foldl (fun n c => n + c.utf8Size) n = n + r.foldl (fun n c => n + c.utf8Size) 0 := by
    induction r generalizing n with
    | nil => rfl
    | cons c r ih =>
      rw [List.foldl_cons, List.foldl_cons, ih (n + _), ih (0 + _)]
      omega
  rw [byteCount, List.foldl_append, hshift]
  rfl

namespace FileTree

variable {t t' : FileTree} {location other : Location} {entry : Entry} {path : Path}

/-! ### Entries -/

/-- The root is a directory. -/
@[simp] theorem at?_nil (t : FileTree) : t.at? [] = some .directory := rfl

/-- Where no directory stands, there is not the root. -/
theorem ne_nil_of_at?_ne (h : t.at? location ≠ some .directory) : location ≠ [] := by
  rintro rfl
  exact h (at?_nil t)

/-- Below the root there stands what the entries say. -/
theorem at?_of_ne_nil (h : location ≠ []) :
    t.at? location = (t.entries.find? (·.1 == location)).map (·.2) :=
  if_neg (by simpa using h)

/-- Replacing the entries at a location changes what is found there. -/
theorem find?_replace (entries : List (Location × Entry)) (location other : Location)
    (entry : Entry) :
    ((entries.map fun e => if e.1 == location then (location, entry) else e).find?
      (·.1 == other)).map (·.2) =
        if other = location ∧ entries.any (·.1 == location) then some entry
        else (entries.find? (·.1 == other)).map (·.2) := by
  induction entries with
  | nil => simp
  | cons e entries ih =>
    by_cases he : e.1 = location
    · by_cases ho : other = location
      · simp [he, ho]
      · have hne : ¬ location = other := fun h => ho h.symm
        simpa [he, ho, hne] using ih
    · by_cases ho : other = location
      · subst ho
        have hany : (e :: entries).any (·.1 == other) = entries.any (·.1 == other) := by
          rw [List.any_cons, beq_false_of_ne he, Bool.false_or]
        rw [hany]
        simpa [he] using ih
      · by_cases hsame : e.1 = other
        · simp [ho, hsame]
        · simpa [he, ho, hsame] using ih

/-- What was put at a location stands there. -/
@[simp] theorem at?_put_self (h : location ≠ []) :
    (t.put location entry).at? location = some entry := by
  rw [at?_of_ne_nil h]
  unfold put
  split
  · next hany =>
    dsimp only
    rw [find?_replace, if_pos ⟨rfl, hany⟩]
  · next hnone =>
    have hfind : t.entries.find? (·.1 == location) = none :=
      List.find?_eq_none.mpr fun e he hsame => hnone (List.any_eq_true.mpr ⟨e, he, hsame⟩)
    simp [List.find?_append, hfind]

/-- Elsewhere everything stays. -/
theorem at?_put_of_ne (h : other ≠ location) : (t.put location entry).at? other = t.at? other := by
  by_cases hroot : other = []
  · rw [hroot]
    rfl
  · rw [at?_of_ne_nil hroot, at?_of_ne_nil hroot]
    unfold put
    split
    · dsimp only
      rw [find?_replace, if_neg fun hboth => h hboth.1]
    · have hne : ¬ location = other := fun heq => h heq.symm
      cases hfind : t.entries.find? (·.1 == other) <;> simp [List.find?_append, hfind, hne]

/-- The directory at hand stays when something is put somewhere. -/
@[simp] theorem here_put : (t.put location entry).here = t.here := by
  unfold put
  split <;> rfl

/-- Putting a directory where nothing stands, or a file where no directory stands, keeps all
directories. -/
theorem at?_put_of_directory (h : t.at? location ≠ some .directory)
    (hother : t.at? other = some .directory) :
    (t.put location entry).at? other = some .directory := by
  have hne : other ≠ location := by
    rintro rfl
    exact h hother
  rw [at?_put_of_ne hne, hother]

/-- Every entry stands in a directory, and so does the directory at hand. -/
structure IsTree (t : FileTree) : Prop where
  parent : ∀ location name, t.at? (location ++ [name]) ≠ none → t.at? location = some .directory
  here : t.at? t.here = some .directory

/-- A tree is well formed if all that is in it stands in directories. -/
theorem isTree_of_entries (h : ∀ e ∈ t.entries, t.at? e.1.dropLast = some .directory)
    (hhere : t.at? t.here = some .directory) : t.IsTree where
  parent above name hsome := by
    rw [at?_of_ne_nil (by simp)] at hsome
    cases hfind : t.entries.find? (·.1 == above ++ [name]) with
    | none =>
      rw [hfind] at hsome
      exact absurd rfl hsome
    | some e =>
      have hplace : e.1 = above ++ [name] := by simpa using List.find?_some hfind
      have hparent := h e (List.mem_of_find?_eq_some hfind)
      rwa [hplace, List.dropLast_concat] at hparent
  here := hhere

/-- Below a location where no directory stands nothing stands. -/
theorem IsTree.at?_append_eq_none (h : t.IsTree) (hnone : t.at? location ≠ some .directory)
    {names : List Text} (hnames : names ≠ []) : t.at? (location ++ names) = none := by
  induction names using List.reverseRecOn with
  | nil => contradiction
  | append_singleton names name ih =>
    by_contra hsome
    rw [← List.append_assoc] at hsome
    have hparent := h.parent _ _ hsome
    by_cases hempty : names = []
    · rw [hempty, List.append_nil] at hparent
      exact hnone hparent
    · rw [ih hempty] at hparent
      contradiction

/-- A tree stays one when something is put into a directory, where none is. -/
theorem IsTree.put (h : t.IsTree) {name : Text} (hparent : t.at? location = some .directory)
    (hnone : t.at? (location ++ [name]) ≠ some .directory) :
    (t.put (location ++ [name]) entry).IsTree where
  parent above last hsome := by
    by_cases hlast : above ++ [last] = location ++ [name]
    · obtain ⟨rfl, -⟩ := List.append_inj' hlast rfl
      exact at?_put_of_directory hnone hparent
    · rw [at?_put_of_ne hlast] at hsome
      exact at?_put_of_directory hnone (h.parent above last hsome)
  here := by
    rw [here_put]
    exact at?_put_of_directory hnone h.here

/-! ### Where paths lead -/

/-- Two points, for the directory above. -/
def up : Text := ['.', '.']

/-- Parts lead from one location to another: through directories, up, or down to names that are not
too long. -/
inductive Leads (t : FileTree) : Location → List Text → Location → Prop
  | here (location : Location) : Leads t location [] location
  | up {location last : Location} {parts : List Text} (hdirectory : t.at? location = some .directory)
      (hrest : Leads t location.dropLast parts last) : Leads t location (FileTree.up :: parts) last
  | down {location last : Location} {part : Text} {parts : List Text}
      (hdirectory : t.at? location = some .directory) (hpart : part ≠ FileTree.up)
      (hshort : Text.byteCount part ≤ nameLimit) (hrest : Leads t (location ++ [part]) parts last) :
      Leads t location (part :: parts) last

/-- A path can be looked for: there is no null character in it, and it is not too long. -/
structure IsAddressable (path : Path) : Prop where
  null : '\x00' ∉ path.text
  short : Text.byteCount path.text ≤ pathLimit

instance (path : Path) : Decidable (IsAddressable path) :=
  decidable_of_iff ('\x00' ∉ path.text ∧ Text.byteCount path.text ≤ pathLimit)
    ⟨fun h => ⟨h.1, h.2⟩, fun h => ⟨h.null, h.short⟩⟩

/-- The paths above one that can be looked for can be looked for. -/
theorem IsAddressable.of_isPrefix {anchor : Anchor} {parts above : List Text}
    (h : IsAddressable ⟨anchor, parts⟩) (habove : above <+: parts) :
    IsAddressable ⟨anchor, above⟩ := by
  by_cases hhere : (⟨anchor, above⟩ : Path) = .here
  · rw [hhere]
    exact ⟨by decide, by decide⟩
  · obtain ⟨rest, htext⟩ := Path.text_isPrefix habove hhere
    obtain ⟨hnull, hshort⟩ := h
    rw [← htext] at hnull hshort
    rw [Text.byteCount_append] at hshort
    exact ⟨fun hmem => hnull (List.mem_append_left _ hmem), by omega⟩

/-- The location from which a path starts. -/
def start (t : FileTree) (path : Path) : Location := if path.isAbsolute then [] else t.here

/-- A part leads up from a directory, or down to a name that is not too long. -/
theorem step_eq_ok_iff {part : Text} :
    t.step path location part = .ok other ↔ t.at? location = some .directory ∧
      (part = up ∧ other = location.dropLast ∨
        part ≠ up ∧ Text.byteCount part ≤ nameLimit ∧ other = location ++ [part]) := by
  unfold step
  split
  · next hnone => simp [hnone]
  · next hfile => simp [hfile]
  · next hdirectory =>
    by_cases hup : part = up
    · have hpoints : (part == ['.', '.']) = true := by simpa [up] using hup
      rw [if_pos hpoints]
      simp [hdirectory, hup, eq_comm]
    · have hpoints : (part == ['.', '.']) = false := by simpa [up] using hup
      rw [hpoints]
      by_cases hlong : nameLimit < Text.byteCount part
      · simp [hdirectory, hup, hlong, Nat.not_le.mpr hlong]
      · simp [hdirectory, hup, hlong, Nat.le_of_not_lt hlong, eq_comm]

/-- Following parts succeeds where they lead. -/
theorem foldlM_step_eq_ok_iff {parts : List Text} :
    parts.foldlM (t.step path) location = .ok other ↔ t.Leads location parts other := by
  induction parts generalizing location with
  | nil =>
    rw [List.foldlM_nil]
    constructor
    · intro h
      obtain rfl := Except.ok.inj h
      exact .here _
    · rintro ⟨⟩
      rfl
  | cons part parts ih =>
    rw [List.foldlM_cons]
    constructor
    · intro h
      cases hstep : t.step path location part with
      | error fault =>
        rw [hstep] at h
        contradiction
      | ok next =>
        rw [hstep] at h
        have hrest := ih.mp h
        obtain ⟨hdirectory, ⟨rfl, rfl⟩ | ⟨hup, hshort, rfl⟩⟩ := step_eq_ok_iff.mp hstep
        · exact .up hdirectory hrest
        · exact .down hdirectory hup hshort hrest
    · rintro (_ | ⟨hdirectory, hrest⟩ | ⟨hdirectory, hup, hshort, hrest⟩)
      · rw [step_eq_ok_iff.mpr ⟨hdirectory, Or.inl ⟨rfl, rfl⟩⟩]
        exact ih.mpr hrest
      · rw [step_eq_ok_iff.mpr ⟨hdirectory, Or.inr ⟨hup, hshort, rfl⟩⟩]
        exact ih.mpr hrest

/-- A path that can be looked for leads where its parts lead. -/
theorem locate_eq_ok_iff :
    t.locate path = .ok location ↔
      IsAddressable path ∧ t.Leads (t.start path) path.parts location := by
  unfold locate
  by_cases hnull : '\x00' ∈ path.text
  · rw [if_pos (by simpa using hnull)]
    exact ⟨nofun, fun h => absurd hnull h.1.null⟩
  · rw [if_neg (by simpa using hnull)]
    by_cases hlong : pathLimit < Text.byteCount path.text
    · rw [if_pos hlong]
      exact ⟨nofun, fun h => absurd h.1.short (Nat.not_le.mpr hlong)⟩
    · rw [if_neg hlong]
      have hpath : IsAddressable path := ⟨hnull, Nat.le_of_not_lt hlong⟩
      exact foldlM_step_eq_ok_iff.trans ⟨fun h => ⟨hpath, h⟩, fun h => h.2⟩

/-- Parts lead on from where other parts lead. -/
theorem leads_append_iff {first rest : List Text} :
    t.Leads location (first ++ rest) other ↔
      ∃ middle, t.Leads location first middle ∧ t.Leads middle rest other := by
  induction first generalizing location with
  | nil =>
    constructor
    · exact fun h => ⟨location, .here _, h⟩
    · rintro ⟨_, ⟨⟩, h⟩
      exact h
  | cons part first ih =>
    rw [List.cons_append]
    constructor
    · rintro (_ | ⟨hdirectory, hrest⟩ | ⟨hdirectory, hup, hshort, hrest⟩)
      · obtain ⟨middle, hfirst, hrest⟩ := ih.mp hrest
        exact ⟨middle, .up hdirectory hfirst, hrest⟩
      · obtain ⟨middle, hfirst, hrest⟩ := ih.mp hrest
        exact ⟨middle, .down hdirectory hup hshort hfirst, hrest⟩
    · rintro ⟨middle, _ | ⟨hdirectory, hfirst⟩ | ⟨hdirectory, hup, hshort, hfirst⟩, hrest⟩
      · exact .up hdirectory (ih.mpr ⟨middle, hfirst, hrest⟩)
      · exact .down hdirectory hup hshort (ih.mpr ⟨middle, hfirst, hrest⟩)

/-- Parts lead to the same location as long as the directories stay. -/
theorem Leads.mono {parts : List Text} (h : t.Leads location parts other)
    (hkeep : ∀ l, t.at? l = some .directory → t'.at? l = some .directory) :
    t'.Leads location parts other := by
  induction h with
  | here => exact .here _
  | up hdirectory _ ih => exact .up (hkeep _ hdirectory) ih
  | down hdirectory hup hshort _ ih => exact .down (hkeep _ hdirectory) hup hshort ih

/-- A path leads to the same location as long as the directories stay. -/
theorem locate_mono (h : t.locate path = .ok location) (hhere : t'.here = t.here)
    (hkeep : ∀ l, t.at? l = some .directory → t'.at? l = some .directory) :
    t'.locate path = .ok location := by
  obtain ⟨hpath, hleads⟩ := locate_eq_ok_iff.mp h
  have hstart : t'.start path = t.start path := by rw [start, start, hhere]
  exact locate_eq_ok_iff.mpr ⟨hpath, hstart ▸ hleads.mono hkeep⟩

/-- Where parts lead from a directory there stands a directory, or they end in a name that leads
there from a directory. -/
theorem IsTree.exists_of_leads (h : t.IsTree) {parts : List Text}
    (hstart : t.at? location = some .directory) (hleads : t.Leads location parts other)
    (hother : t.at? other ≠ some .directory) :
    ∃ above name, other = above ++ [name] ∧ t.at? above = some .directory := by
  induction parts using List.reverseRecOn with
  | nil =>
    cases hleads
    exact absurd hstart hother
  | append_singleton parts part =>
    obtain ⟨middle, -, hlast⟩ := leads_append_iff.mp hleads
    rcases hlast with _ | ⟨hdirectory, ⟨⟩⟩ | ⟨hdirectory, hup, hshort, ⟨⟩⟩
    · exfalso
      rcases List.eq_nil_or_concat middle with rfl | ⟨above, name, rfl⟩
      · exact hother (at?_nil t)
      · rw [List.concat_eq_append, List.dropLast_concat] at hother
        rw [List.concat_eq_append] at hdirectory
        refine hother (h.parent above name ?_)
        rw [hdirectory]
        exact Option.some_ne_none _
    · exact ⟨middle, part, rfl, hdirectory⟩

/-- A path that leads to no directory ends in a name that leads there from a directory. -/
theorem IsTree.exists_of_locate (h : t.IsTree) (hlocate : t.locate path = .ok location)
    (hnone : t.at? location ≠ some .directory) :
    ∃ above name, location = above ++ [name] ∧ t.at? above = some .directory := by
  refine h.exists_of_leads ?_ (locate_eq_ok_iff.mp hlocate).2 hnone
  unfold start
  split
  · exact at?_nil t
  · exact h.here

/-! ### Below a directory -/

/-- Names that lead down: none of them leads up, and none is too long. -/
def LeadDown (names : List Text) : Prop := ∀ name ∈ names, name ≠ up ∧ Text.byteCount name ≤ nameLimit

instance (names : List Text) : Decidable (LeadDown names) :=
  inferInstanceAs (Decidable (∀ name ∈ names, name ≠ up ∧ Text.byteCount name ≤ nameLimit))

variable {base : Location} {names : List Text} {root : Path}

/-- Names lead down through directories. -/
theorem leads_below (hnames : LeadDown names)
    (hdirectories : ∀ first, first <+: names → first ≠ names →
      t.at? (base ++ first) = some .directory) : t.Leads base names (base ++ names) := by
  induction names generalizing base with
  | nil =>
    rw [List.append_nil]
    exact .here base
  | cons name names ih =>
    obtain ⟨⟨hup, hshort⟩, hrest⟩ := List.forall_mem_cons.mp hnames
    have hbase := hdirectories [] List.nil_prefix (List.cons_ne_nil _ _).symm
    rw [List.append_nil] at hbase
    have hbelow : t.Leads (base ++ [name]) names (base ++ [name] ++ names) := by
      refine ih hrest fun first hfirst hne => ?_
      have hdirectory := hdirectories (name :: first) (List.cons_prefix_cons.mpr ⟨rfl, hfirst⟩)
        fun heq => hne (List.cons.inj heq).2
      rwa [List.append_cons] at hdirectory
    rw [List.append_cons]
    exact .down hbase hup hshort hbelow

/-- Names cannot be followed to where a directory is missing. -/
theorem foldlM_step_missing (hnames : LeadDown names)
    (hfree : ∀ first, first <+: names → ∀ content, t.at? (base ++ first) ≠ some (.file content))
    {above : List Text} (habove : above <+: names) (hne : above ≠ names)
    (hnone : t.at? (base ++ above) = none) :
    names.foldlM (t.step path) base = .error (.missing path) := by
  induction names generalizing base above with
  | nil => exact absurd (List.prefix_nil.mp habove) hne
  | cons name names ih =>
    rw [List.foldlM_cons]
    cases hbase : t.at? base with
    | none =>
      have hstep : t.step path base name = .error (.missing path) := by rw [step, hbase]
      rw [hstep]
      rfl
    | some entry =>
      cases entry with
      | file content =>
        refine absurd ?_ (hfree [] List.nil_prefix content)
        rw [List.append_nil, hbase]
      | directory =>
        obtain ⟨⟨hup, hshort⟩, hrest⟩ := List.forall_mem_cons.mp hnames
        have hstep : t.step path base name = .ok (base ++ [name]) :=
          step_eq_ok_iff.mpr ⟨hbase, Or.inr ⟨hup, hshort, rfl⟩⟩
        rw [hstep]
        cases above with
        | nil =>
          rw [List.append_nil, hbase] at hnone
          contradiction
        | cons first above =>
          obtain ⟨rfl, hbelow⟩ := List.cons_prefix_cons.mp habove
          rw [List.append_cons] at hnone
          refine ih hrest (fun more hmore content => ?_) hbelow (fun heq => hne (by rw [heq])) hnone
          rw [← List.append_cons]
          exact hfree (first :: more) (List.cons_prefix_cons.mpr ⟨rfl, hmore⟩) content

/-- From where a path leads its text goes on with further names. -/
theorem locate_append (hroot : t.locate root = .ok base)
    (hpath : IsAddressable ⟨root.anchor, root.parts ++ names⟩) :
    t.locate ⟨root.anchor, root.parts ++ names⟩ =
      names.foldlM (t.step ⟨root.anchor, root.parts ++ names⟩) base := by
  obtain ⟨-, hleads⟩ := locate_eq_ok_iff.mp hroot
  have hfirst : root.parts.foldlM (t.step ⟨root.anchor, root.parts ++ names⟩) (t.start root) =
      .ok base := foldlM_step_eq_ok_iff.mpr hleads
  unfold locate
  rw [if_neg (by simpa using hpath.null), if_neg (Nat.not_lt.mpr hpath.short), List.foldlM_append]
  exact congrArg (· >>= _) hfirst

/-- Below a directory a path leads where its names do. -/
theorem locate_below (hroot : t.locate root = .ok base) (hnames : LeadDown names)
    (hpath : IsAddressable ⟨root.anchor, root.parts ++ names⟩)
    (hdirectories : ∀ first, first <+: names → first ≠ names →
      t.at? (base ++ first) = some .directory) :
    t.locate ⟨root.anchor, root.parts ++ names⟩ = .ok (base ++ names) := by
  rw [locate_append hroot hpath]
  exact foldlM_step_eq_ok_iff.mpr (leads_below hnames hdirectories)

/-! ### Files that are written -/

/-- A file is written where its path leads, unless a directory stands there. -/
theorem writeText_eq_ok_iff {s : Text} :
    t.writeText path s = .ok t' ↔ ∃ location, t.locate path = .ok location ∧
      t.at? location ≠ some .directory ∧ t' = t.put location (.file (.text s)) := by
  unfold writeText
  cases hlocate : t.locate path with
  | error fault => exact ⟨nofun, nofun⟩
  | ok location =>
    simp only [bind, Except.bind]
    constructor
    · intro h
      split at h
      · contradiction
      · next hnone => exact ⟨location, rfl, hnone, (Except.ok.inj h).symm⟩
    · rintro ⟨_, ⟨⟩, hnone, rfl⟩
      split
      · next hdirectory => exact absurd hdirectory hnone
      · rfl

/-- A text without carriage returns has its line breaks unified. -/
theorem unifyBreaks_eq_self {s : Text} (h : '\r' ∉ s) : unifyBreaks s = s := by
  fun_induction unifyBreaks s with
  | case1 => rfl
  | case2 r ih => exact absurd List.mem_cons_self h
  | case3 r _ ih => exact absurd List.mem_cons_self h
  | case4 c r _ _ ih => rw [ih fun hr => h (List.mem_cons_of_mem c hr)]

/-- What was written to a file is read from it, with its line breaks unified. -/
theorem readText_of_writeText {s : Text} (h : t.writeText path s = .ok t') :
    t'.readText path = .ok (unifyBreaks s) := by
  obtain ⟨location, hlocate, hnone, rfl⟩ := writeText_eq_ok_iff.mp h
  have hagain : (t.put location (.file (.text s))).locate path = .ok location :=
    locate_mono hlocate here_put fun _ => at?_put_of_directory hnone
  have hfile : (t.put location (.file (.text s))).at? location = some (.file (.text s)) :=
    at?_put_self (ne_nil_of_at?_ne hnone)
  simp only [readText, content, find, hagain, bind, Except.bind, hfile]
  rfl

end FileTree

end Stencil
