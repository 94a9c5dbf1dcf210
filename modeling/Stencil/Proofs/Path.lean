import Stencil.Path
import Mathlib.Data.List.Infix

/-!
# Paths and their texts

How the text of a path is put together from its parts, and how long it is. A text that is read as a
path may hold slashes and points that the path leaves out, so the text of the path is not longer.
-/

namespace Stencil.Path

/-! ### Texts of parts -/

/-- The text of some parts is that of the first ones, a slash, and that of the others. -/
theorem intercalate_append {first rest : List Text} (hfirst : first ≠ []) (hrest : rest ≠ []) :
    List.intercalate ['/'] (first ++ rest) =
      List.intercalate ['/'] first ++ '/' :: List.intercalate ['/'] rest := by
  induction first with
  | nil => contradiction
  | cons part parts ih =>
    by_cases hparts : parts = []
    · subst hparts
      rw [List.singleton_append, List.intercalate_cons_of_ne_nil hrest, List.intercalate_singleton]
      simp
    · rw [List.cons_append, List.intercalate_cons_of_ne_nil (by simp [hparts]), ih hparts,
        List.intercalate_cons_of_ne_nil hparts]
      simp

/-- One part more makes the text of parts no shorter. -/
theorem length_intercalate_le_cons (part : Text) (parts : List Text) :
    (List.intercalate ['/'] parts).length ≤ (List.intercalate ['/'] (part :: parts)).length := by
  by_cases hparts : parts = []
  · simp [hparts]
  · rw [List.intercalate_cons_of_ne_nil hparts]
    simp only [List.length_append]
    omega

/-- Fewer parts have a text that is not longer. -/
theorem length_intercalate_le {fewer parts : List Text} (h : fewer.Sublist parts) :
    (List.intercalate ['/'] fewer).length ≤ (List.intercalate ['/'] parts).length := by
  induction h with
  | slnil => exact Nat.le_refl _
  | cons part _ ih => exact Nat.le_trans ih (length_intercalate_le_cons part _)
  | @cons_cons fewer parts part hsub ih =>
    by_cases hfewer : fewer = []
    · have hpart := length_intercalate_le_cons part []
      by_cases hparts : parts = []
      · rw [hfewer, hparts]
      · rw [hfewer, List.intercalate_singleton, List.intercalate_cons_of_ne_nil hparts]
        simp
    · have hparts : parts ≠ [] := by
        rintro rfl
        exact hfewer (List.sublist_nil.mp hsub)
      rw [List.intercalate_cons_of_ne_nil hfewer, List.intercalate_cons_of_ne_nil hparts]
      simpa using ih

/-- The parts of a text are together not longer than the text. -/
theorem length_intercalate_partsOf_le (s : Text) :
    (List.intercalate ['/'] (partsOf s)).length ≤ s.length := by
  have hfewer := length_intercalate_le (List.filter_sublist (l := s.splitOn '/')
    (p := fun part => !isVoid part))
  rwa [List.intercalate_splitOn] at hfewer

/-- A character in the text of parts is a slash or stands in one of the parts. -/
theorem mem_intercalate {c : Char} {parts : List Text} (h : c ∈ List.intercalate ['/'] parts) :
    c = '/' ∨ ∃ part ∈ parts, c ∈ part := by
  induction parts with
  | nil => simp at h
  | cons part parts ih =>
    by_cases hparts : parts = []
    · rw [hparts, List.intercalate_singleton] at h
      exact Or.inr ⟨part, List.mem_cons_self, h⟩
    · rw [List.intercalate_cons_of_ne_nil hparts, List.mem_append, List.mem_append,
        List.mem_singleton] at h
      rcases h with (h | h) | h
      · exact Or.inr ⟨part, List.mem_cons_self, h⟩
      · exact Or.inl h
      · rcases ih h with hslash | ⟨other, hother, hc⟩
        · exact Or.inl hslash
        · exact Or.inr ⟨other, List.mem_cons_of_mem _ hother, hc⟩

/-! ### Paths -/

/-- The text of a path other than the directory at hand is its anchor and its parts. -/
theorem text_of_ne_here {p : Path} (h : p ≠ here) :
    p.text = p.anchor.text ++ List.intercalate ['/'] p.parts := by
  obtain ⟨anchor, parts⟩ := p
  unfold text
  split
  · next hanchor hparts => exact absurd (congrArg₂ Path.mk hanchor hparts) h
  · rfl

/-- The text of a path begins with those of the paths above it, but for the directory at hand. -/
theorem text_isPrefix {anchor : Anchor} {parts above : List Text} (h : above <+: parts)
    (hhere : (⟨anchor, above⟩ : Path) ≠ here) : text ⟨anchor, above⟩ <+: text ⟨anchor, parts⟩ := by
  obtain ⟨rest, rfl⟩ := h
  have hlong : (⟨anchor, above ++ rest⟩ : Path) ≠ here := by
    rintro heq
    obtain ⟨rfl, hparts⟩ := Path.mk.inj heq
    exact hhere (congrArg _ (List.append_eq_nil_iff.mp hparts).1)
  rw [text_of_ne_here hhere, text_of_ne_here hlong, List.prefix_append_right_inj]
  by_cases habove : above = []
  · rw [habove, List.intercalate_nil]
    exact List.nil_prefix
  · by_cases hrest : rest = []
    · rw [hrest, List.append_nil]
    · rw [intercalate_append habove hrest]
      exact List.prefix_append _ _

/-- The text of a path that starts from the directory at hand. -/
theorem text_here {parts : List Text} (h : parts ≠ []) :
    text ⟨.here, parts⟩ = List.intercalate ['/'] parts :=
  text_of_ne_here fun heq => h (Path.mk.inj heq).2

/-- The text of a path that starts from the directory at hand begins with a character of its first
part. -/
theorem exists_cons_text_here {part : Text} (h : part ≠ []) (parts : List Text) :
    ∃ c t, text ⟨.here, part :: parts⟩ = c :: t ∧ c ∈ part := by
  obtain ⟨c, r, rfl⟩ := List.exists_cons_of_ne_nil h
  rw [text_here (List.cons_ne_nil _ _)]
  by_cases hparts : parts = []
  · exact ⟨c, r, by rw [hparts, List.intercalate_singleton], List.mem_cons_self⟩
  · exact ⟨c, _, List.intercalate_cons_of_ne_nil hparts, List.mem_cons_self⟩

/-- Seen from a root, a path is what follows the parts of the root. -/
theorem relativeTo?_eq_some_iff {p root relative : Path} :
    p.relativeTo? root = some relative ↔
      p = ⟨root.anchor, root.parts ++ relative.parts⟩ ∧ relative.anchor = .here := by
  obtain ⟨anchor, parts⟩ := p
  simp only [relativeTo?, partsAfter?, Option.map_eq_some_iff, Option.ite_none_right_eq_some,
    beq_iff_eq, List.isPrefixOf?_eq_some_iff_append_eq]
  constructor
  · rintro ⟨after, ⟨hanchor, hparts⟩, rfl⟩
    exact ⟨by rw [hanchor, ← hparts], rfl⟩
  · rintro ⟨hpath, hrelative⟩
    obtain ⟨rfl, rfl⟩ := Path.mk.inj hpath
    exact ⟨relative.parts, ⟨rfl, rfl⟩, by rw [← hrelative]⟩

/-- A path is below another one if its parts go on from those of the other one. -/
theorem isBelow_iff {p dir : Path} :
    p.isBelow dir ↔ ∃ rest, rest ≠ [] ∧ p = ⟨dir.anchor, dir.parts ++ rest⟩ := by
  obtain ⟨anchor, parts⟩ := p
  simp only [isBelow, Bool.and_eq_true, beq_iff_eq, List.isPrefixOf_iff_prefix, decide_eq_true_eq]
  constructor
  · rintro ⟨⟨rfl, rest, rfl⟩, hlength⟩
    refine ⟨rest, ?_, rfl⟩
    rintro rfl
    simp at hlength
  · rintro ⟨rest, hrest, hpath⟩
    obtain ⟨rfl, rfl⟩ := Path.mk.inj hpath
    have hpos := List.length_pos_iff.mpr hrest
    exact ⟨⟨rfl, List.prefix_append _ _⟩, by simpa using hpos⟩

/-- Where a text that does not start from a root leads from a directory. -/
theorem child_of_relative {s : Text} (h : (ofText s).isAbsolute = false) (directory : Path) :
    directory.child s = ⟨directory.anchor, directory.parts ++ partsOf s⟩ := by
  rw [child, join, h]
  rfl

/-- Seen from the directory, this is what the text is read as. -/
@[simp] theorem relativeTo?_child {s : Text} (h : (ofText s).isAbsolute = false)
    (directory : Path) :
    (directory.child s).relativeTo? directory = some (ofText s) := by
  have hanchor : (ofText s).anchor = .here := by simpa [isAbsolute] using h
  exact relativeTo?_eq_some_iff.mpr ⟨child_of_relative h directory, hanchor⟩

/-- Seen from a directory, the path of a text has a text that is not longer. -/
theorem length_text_le_of_relativeTo?_child {directory relative : Path} {s : Text}
    (h : (directory.child s).relativeTo? directory = some relative)
    (hparts : relative.parts ≠ []) : relative.text.length ≤ s.length := by
  obtain ⟨hpath, hanchor⟩ := relativeTo?_eq_some_iff.mp h
  have hsub : relative.parts.Sublist (partsOf s) := by
    unfold child join at hpath
    split at hpath
    · rw [(Path.mk.inj hpath).2]
      exact List.sublist_append_right _ _
    · have hsame : partsOf s = relative.parts := List.append_cancel_left (Path.mk.inj hpath).2
      rw [hsame]
  have htext : relative.text = List.intercalate ['/'] relative.parts := by
    rw [← text_here hparts, ← hanchor]
  rw [htext]
  exact Nat.le_trans (length_intercalate_le hsub) (length_intercalate_partsOf_le s)

/-! ### Texts that are read back -/

/-- A path as it is read from a text: no part is empty, a single point or cut by a slash. -/
def IsNormal (p : Path) : Prop := ∀ part ∈ p.parts, part ≠ [] ∧ part ≠ ['.'] ∧ '/' ∉ part

instance (p : Path) : Decidable p.IsNormal :=
  inferInstanceAs (Decidable (∀ part ∈ p.parts, part ≠ [] ∧ part ≠ ['.'] ∧ '/' ∉ part))

/-- A slash at the front of a text is no part. -/
@[simp] theorem partsOf_slash (s : Text) : partsOf ('/' :: s) = partsOf s := by
  have hsplit : ('/' :: s).splitOn '/' = [] :: s.splitOn '/' :=
    List.splitOn_append_cons_self_of_not_mem List.not_mem_nil s
  rw [partsOf, hsplit, List.filter_cons_of_neg (by decide)]
  rfl

/-- The parts of an anchor and a text are those of the text. -/
@[simp] theorem partsOf_anchor_append (anchor : Anchor) (s : Text) :
    partsOf (anchor.text ++ s) = partsOf s := by
  cases anchor with
  | here => rfl
  | root => exact partsOf_slash s
  | doubleRoot => exact (partsOf_slash _).trans (partsOf_slash s)

/-- The parts of a path are read back from their text. -/
theorem partsOf_intercalate {p : Path} (h : p.IsNormal) :
    partsOf (List.intercalate ['/'] p.parts) = p.parts := by
  by_cases hparts : p.parts = []
  · rw [hparts]
    rfl
  · rw [partsOf, List.splitOn_intercalate '/' (fun part hpart => (h part hpart).2.2) hparts]
    refine List.filter_eq_self.mpr fun part hpart => ?_
    obtain ⟨hempty, hpoint, -⟩ := h part hpart
    simp [isVoid, hempty, hpoint]

/-- The text of parts does not begin with a slash. -/
theorem intercalate_ne_slash {p : Path} (h : p.IsNormal) (s : Text) :
    List.intercalate ['/'] p.parts ≠ '/' :: s := by
  cases hparts : p.parts with
  | nil => exact nofun
  | cons part parts =>
    obtain ⟨hempty, -, hslash⟩ := h part (by rw [hparts]; exact List.mem_cons_self)
    obtain ⟨c, t, htext, hc⟩ := exists_cons_text_here hempty parts
    rw [text_here (List.cons_ne_nil _ _)] at htext
    rw [htext]
    rintro heq
    rw [(List.cons.inj heq).1] at hc
    exact hslash hc

/-- The anchor in front of a text without a slash at its front is read back. -/
theorem anchorOf_append (anchor : Anchor) {s : Text} (h : ∀ t, s ≠ '/' :: t) :
    anchorOf (anchor.text ++ s) = anchor := by
  cases s with
  | nil => cases anchor <;> rfl
  | cons c t =>
    have hc : c ≠ '/' := by
      rintro rfl
      exact h t rfl
    cases anchor <;> simp [Anchor.text, anchorOf, hc]

/-- **A path is read back from its text.** -/
theorem ofText_text {p : Path} (h : p.IsNormal) : ofText p.text = p := by
  by_cases hpoint : p = here
  · rw [hpoint]
    decide
  · rw [ofText, text_of_ne_here hpoint, anchorOf_append _ (intercalate_ne_slash h),
      partsOf_anchor_append, partsOf_intercalate h]

/-- No piece of a text between slashes holds a slash. -/
theorem slash_not_mem_of_mem_splitOn {s part : Text} (h : part ∈ s.splitOn '/') : '/' ∉ part := by
  induction hlength : s.length using Nat.strongRecOn generalizing s with
  | ind length ih =>
    by_cases hslash : '/' ∈ s
    · obtain ⟨first, rest, rfl, hfirst⟩ := List.eq_append_cons_of_mem hslash
      rw [List.splitOn_append_cons_self_of_not_mem hfirst] at h
      rcases List.mem_cons.mp h with rfl | h
      · exact hfirst
      · refine ih rest.length ?_ h rfl
        simp only [List.length_append, List.length_cons] at hlength
        omega
    · rw [List.splitOn_eq_singleton hslash] at h
      rwa [List.mem_singleton.mp h]

/-- A path that was read from a text is as such paths are. -/
theorem isNormal_ofText (s : Text) : (ofText s).IsNormal := by
  intro part hpart
  obtain ⟨hsplit, hvoid⟩ := List.mem_filter.mp hpart
  have hslash := slash_not_mem_of_mem_splitOn hsplit
  simpa [isVoid, hslash] using hvoid

/-- Below a path that was read from a text, a text leads to such a path. -/
theorem IsNormal.child {p : Path} (h : p.IsNormal) (s : Text) : (p.child s).IsNormal := by
  unfold Path.child join
  split
  · exact isNormal_ofText s
  · exact List.forall_mem_append.mpr ⟨h, isNormal_ofText s⟩

end Stencil.Path
