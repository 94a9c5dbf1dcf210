import Stencil.Template.Lint
import Stencil.Proofs.Template.BlockTags

/-!
# What the check of a template tells about reading it

The check looks for the closing tags of each kind by themselves, and in a text in which comments are
replaced by the line breaks in them. Reading takes comments out and reads a body by itself. So a
template without mistakes can still be read with a report: if blocks of different kinds cross, or if
a comment stands inside of a tag. Nothing else is missed.
-/

namespace Stencil.Template

/-- Text in which a mark does not begin has no places that need the mark. -/
theorem countPlaces_append_of_avoids {p : Text → Bool} {mark s : Text}
    (hp : ∀ u, p u → mark <+: u) (hs : Text.Avoids mark s) (t : Text) :
    countPlaces p (s ++ t) = countPlaces p t := by
  induction s with
  | nil => rfl
  | cons c s ih =>
    rw [List.cons_append, countPlaces, if_neg fun hfront => hs.1 t (hp _ hfront), ih hs.2,
      Nat.zero_add]

/-- If the check finds no mistake, it finds none about the blocks of any kind. -/
theorem lintKind_eq_nil_of_lint {source template : Text} (h : lint source template = [])
    (kind : BlockKind) : lintKind template (stripComments true source) kind = [] := by
  have hall : (((Text.lines source).zipIdx 1).flatMap fun line =>
      lintLine template line.2 line.1) ++
        BlockKind.all.flatMap (lintKind template (stripComments true source)) = [] := by
    refine List.perm_nil.mp ((List.mergeSort_perm _ fun a b => a.line ≤ b.line).symm.trans ?_)
    exact List.perm_nil.mpr h
  exact List.flatMap_eq_nil_iff.mp (List.append_eq_nil_iff.mp hall).2 kind
    (by cases kind <;> decide)

/-- If the check finds no mistake, every opening tag in the checked text begins a block. -/
theorem allMatched_of_lint {source template : Text} (h : lint source template = []) :
    AllMatched (stripComments true source) := by
  intro kind offset hmem
  have hunmatched := (List.append_eq_nil_iff.mp (lintKind_eq_nil_of_lint h kind)).2
  have hnone := List.filterMap_eq_nil_iff.mp hunmatched _ hmem
  contradiction

/-- Reading reports an unmatched block unless it reports nothing. -/
theorem exists_unmatchedBlock_iff {s : Text} :
    (∃ kind opener, .unmatchedBlock kind opener ∈ (parse s).diagnostics) ↔
      (parse s).diagnostics ≠ [] := by
  constructor
  · rintro ⟨kind, opener, hmem⟩
    exact List.ne_nil_of_mem hmem
  · intro h
    obtain ⟨d, hmem⟩ := List.exists_mem_of_ne_nil _ h
    obtain ⟨kind, opener, rfl⟩ := exists_unmatchedBlock_of_mem_parseBare hmem
    exact ⟨kind, opener, hmem⟩

/-- **What the check leaves over.** If the check finds no mistake in a template, and its tags are
the same with comments replaced by their line breaks as with comments taken out, then reading it
reports an unmatched block exactly if two of its blocks cross. -/
theorem exists_unmatchedBlock_iff_of_lint {source template : Text}
    (hlint : lint source template = [])
    (htags : blockTags (stripComments true source) = blockTags (stripComments false source)) :
    (∃ kind opener, .unmatchedBlock kind opener ∈ (parse source).diagnostics) ↔
      BlocksCross (stripComments false source) := by
  have hmatched : AllMatched (stripComments false source) :=
    (allMatched_congr htags).mp (allMatched_of_lint hlint)
  rw [exists_unmatchedBlock_iff, parse, Ne, diagnostics_parseBare_eq_nil_iff_matched,
    and_iff_right hmatched, not_not]

/-- A template with blocks inside of each other and a comment of two lines between them has no
mistakes, and none of its blocks cross, since nothing is reported when it is read. -/
theorem exists_unmatchedBlock_iff_of_lint_with_comment :
    let comment := commentOpen ++ ['\n'] ++ commentClose
    let loop := "\x7b\x7b#each b\x7d\x7d1\x7b\x7b/each\x7d\x7d".toList
    let source := "\x7b\x7b#if a\x7d\x7d".toList ++ comment ++ loop ++ "\x7b\x7b/if\x7d\x7d".toList
    lint source [] = [] ∧
      blockTags (stripComments true source) = blockTags (stripComments false source) ∧
      (parse source).diagnostics = [] ∧ ¬ BlocksCross (stripComments false source) := by
  intro comment loop source
  have hlint : lint source [] = [] := by decide +kernel
  have htags : blockTags (stripComments true source) = blockTags (stripComments false source) := by
    decide +kernel
  have hclean : (parse source).diagnostics = [] := by decide +kernel
  have hreports : BlocksCross (stripComments false source) → (parse source).diagnostics ≠ [] :=
    fun hcross => exists_unmatchedBlock_iff.mp
      ((exists_unmatchedBlock_iff_of_lint hlint htags).mpr hcross)
  exact ⟨hlint, htags, hclean, fun hcross => hreports hcross hclean⟩

/-- A loop that opens inside of a conditional and closes behind it, and an opening tag that a
comment of two lines interrupts: the check finds no mistake, and reading reports both opening
tags. -/
theorem lint_misses_unmatchedBlock :
    let condition := "\x7b\x7b#if a\x7d\x7d".toList
    let loop := "\x7b\x7b#each b\x7d\x7d".toList
    let crossing := condition ++ loop ++ "\x7b\x7b/if\x7d\x7d\x7b\x7b/each\x7d\x7d".toList
    let interrupted := blockMark ++ commentOpen ++ ['\n'] ++ commentClose ++ "if a\x7d\x7d".toList
    (lint crossing [] = [] ∧ .unmatchedBlock .each loop ∈ (parse crossing).diagnostics) ∧
      (lint interrupted [] = [] ∧
        .unmatchedBlock .conditional condition ∈ (parse interrupted).diagnostics) := by
  decide +kernel

end Stencil.Template
