import Stencil.Text.Basic
import Mathlib.Data.List.Infix

/-!
# Searching a text

A text is cut at the first place where a mark stands. There is such a place exactly if the mark is
part of the text.
-/

namespace Stencil.Text

/-- A beginning is split off. -/
@[simp] theorem isPrefixOf?_append (start rest : Text) :
    start.isPrefixOf? (start ++ rest) = some rest :=
  List.isPrefixOf?_eq_some_iff_append_eq.mpr rfl

/-- The two sides of a cut with the mark between them are the whole text. -/
theorem eq_of_cut? {mark s before after : Text} (h : cut? mark s = some (before, after)) :
    s = before ++ mark ++ after := by
  induction s generalizing before with
  | nil =>
    rw [cut?] at h
    split at h
    · next hempty =>
      obtain ⟨rfl, rfl⟩ := Prod.mk.inj (Option.some.inj h)
      rw [List.isEmpty_iff.mp hempty]
      rfl
    · contradiction
  | cons c r ih =>
    rw [cut?] at h
    split at h
    · next rest hbegin =>
      obtain ⟨rfl, rfl⟩ := Prod.mk.inj (Option.some.inj h)
      exact (List.append_eq_of_isPrefixOf?_eq_some hbegin).symm
    · obtain ⟨⟨before, after⟩, hlater, heq⟩ := Option.map_eq_some_iff.mp h
      obtain ⟨rfl, rfl⟩ := Prod.mk.inj heq
      rw [ih hlater]
      rfl

/-- A text can be cut exactly at a mark that stands in it. -/
theorem isSome_cut?_iff {mark s : Text} : (cut? mark s).isSome ↔ mark <:+: s := by
  constructor
  · intro h
    obtain ⟨⟨before, after⟩, hcut⟩ := Option.isSome_iff_exists.mp h
    exact ⟨before, after, (eq_of_cut? hcut).symm⟩
  · intro h
    induction s with
    | nil => simp [cut?, List.infix_nil.mp h]
    | cons c r ih =>
      rw [cut?]
      split
      · rfl
      · next hbegin =>
        rcases List.infix_cons_iff.mp h with ⟨rest, hfirst⟩ | hlater
        · have hhere : mark.isPrefixOf? (c :: r) = some rest := by
            rw [← hfirst]
            exact isPrefixOf?_append mark rest
          simp [hhere] at hbegin
        · rw [Option.isSome_map]
          exact ih hlater

/-- No mark ends before the place where a text is cut. -/
theorem not_infix_of_cut? {mark s before after : Text} (hmark : mark ≠ [])
    (h : cut? mark s = some (before, after)) : ¬ mark <:+: before ++ mark.dropLast := by
  have hshort : ¬ mark <:+: mark.dropLast := by
    intro hinfix
    have hlength := hinfix.length_le
    have hpos := List.length_pos_iff.mpr hmark
    rw [List.length_dropLast] at hlength
    omega
  induction s generalizing before with
  | nil =>
    rw [cut?, if_neg (by simpa using hmark)] at h
    contradiction
  | cons c r ih =>
    have hwhole := eq_of_cut? h
    rw [cut?] at h
    split at h
    · obtain ⟨rfl, rfl⟩ := Prod.mk.inj (Option.some.inj h)
      exact hshort
    · next hbegin =>
      obtain ⟨⟨before, after⟩, hlater, heq⟩ := Option.map_eq_some_iff.mp h
      obtain ⟨rfl, rfl⟩ := Prod.mk.inj heq
      intro hinfix
      rcases List.infix_cons_iff.mp hinfix with hfirst | hrest
      · have hfront : c :: (before ++ mark.dropLast) <+: c :: r := by
          rw [hwhole, ← List.cons_append, List.append_assoc, List.prefix_append_right_inj]
          exact (List.dropLast_prefix mark).trans (List.prefix_append ..)
        obtain ⟨rest, hhere⟩ := hfirst.trans hfront
        rw [List.isPrefixOf?_eq_some_iff_append_eq.mpr hhere] at hbegin
        contradiction
      · exact ih hlater hrest

/-- A text is cut at a mark that none ends before. -/
theorem cut?_of_not_infix {mark before : Text} (hmark : mark ≠ [])
    (h : ¬ mark <:+: before ++ mark.dropLast) (after : Text) :
    cut? mark (before ++ mark ++ after) = some (before, after) := by
  induction before with
  | nil =>
    obtain ⟨c, rest, rfl⟩ := List.exists_cons_of_ne_nil hmark
    have hhere := isPrefixOf?_append (c :: rest) after
    rw [List.nil_append, List.cons_append] at *
    rw [cut?, hhere]
  | cons c before ih =>
    have hbegin : mark.isPrefixOf? (c :: (before ++ mark ++ after)) = none := by
      rw [Option.eq_none_iff_forall_ne_some]
      intro rest hrest
      -- Both are beginnings of the text, and the mark is the shorter one.
      have hfirst : mark <+: c :: (before ++ mark ++ after) :=
        ⟨rest, List.append_eq_of_isPrefixOf?_eq_some hrest⟩
      have hfront : c :: before ++ mark.dropLast <+: c :: (before ++ mark ++ after) := by
        rw [List.append_assoc, ← List.cons_append, List.prefix_append_right_inj]
        exact (List.dropLast_prefix mark).trans (List.prefix_append mark after)
      refine h (List.prefix_of_prefix_length_le hfirst hfront ?_).isInfix
      simp only [List.length_append, List.length_cons, List.length_dropLast]
      omega
    have hlater : ¬ mark <:+: before ++ mark.dropLast := fun hinfix => h (List.infix_cons hinfix)
    rw [List.cons_append, List.cons_append, cut?, hbegin, ih hlater]
    rfl

/-- A text is cut at the first place where a mark stands: the two sides with the mark between them
are the text, and no mark ends before. -/
theorem cut?_eq_some_iff {mark s before after : Text} (hmark : mark ≠ []) :
    cut? mark s = some (before, after) ↔
      s = before ++ mark ++ after ∧ ¬ mark <:+: before ++ mark.dropLast := by
  constructor
  · exact fun h => ⟨eq_of_cut? h, not_infix_of_cut? hmark h⟩
  · rintro ⟨rfl, h⟩
    exact cut?_of_not_infix hmark h after

/-- A piece stands in what the pieces are joined to. -/
theorem infix_intercalate_of_mem {mark piece : Text} {pieces : List Text} (h : piece ∈ pieces) :
    piece <:+: mark.intercalate pieces := by
  induction pieces with
  | nil => exact absurd h List.not_mem_nil
  | cons first pieces ih =>
    cases pieces with
    | nil => rw [List.mem_singleton.mp h, List.intercalate_singleton]
    | cons second pieces =>
      rw [List.intercalate_cons_cons, List.append_assoc]
      rcases List.mem_cons.mp h with rfl | hlater
      · exact (List.prefix_append ..).isInfix
      · have hrest := (ih hlater).trans (List.suffix_append mark _).isInfix
        exact hrest.trans (List.suffix_append first _).isInfix

/-- A line of a text stands in it. -/
theorem infix_of_mem_lines {line s : Text} (h : line ∈ lines s) : line <:+: s := by
  have hjoined : line <:+: ['\n'].intercalate (s.splitOn '\n') := infix_intercalate_of_mem h
  rwa [List.intercalate_splitOn] at hjoined

end Stencil.Text
