import Mathlib.Data.List.DropRight
import Mathlib.Data.List.SplitBy
import Mathlib.Tactic.IntervalCases
import Stencil.Layout

/-!
# Tidy text

A text is tidy if no line ends in padding and no more than two line breaks stand in a row. The two
passes over a text are told line by line and run by run. The first one can bring line breaks
together, so the second one comes behind it; it brings no padding to the end of a line. So the
tidied text is tidy, and a tidy text stays as it is.
-/

namespace Stencil.Layout

variable {s t : Text} {c : Char}

/-- No padding stands at the end of a line. -/
def Unpadded (s : Text) : Prop :=
  ∀ before c after, s = before ++ c :: after → isPadding c → atLineEnd after = false

/-- No more than two line breaks stand in a row. -/
def HasFewBreaks (s : Text) : Prop := ¬ ['\n', '\n', '\n'] <:+: s

/-- A text in which no line ends in padding and no more than two line breaks stand in a row. -/
structure IsTidy (s : Text) : Prop where
  padding : Unpadded s
  breaks : HasFewBreaks s

/-! ### Padding -/

/-- A character more in front stands at the end of a line only if the text begins with one. -/
theorem unpadded_cons_iff :
    Unpadded (c :: s) ↔ (isPadding c → atLineEnd s = false) ∧ Unpadded s := by
  constructor
  · intro h
    exact ⟨h [] c s rfl, fun before d after heq => h (c :: before) d after (by rw [heq]; rfl)⟩
  · rintro ⟨hfirst, hrest⟩ before d after heq hd
    cases before with
    | nil =>
      obtain ⟨rfl, rfl⟩ := List.cons.inj heq
      exact hfirst hd
    | cons b before => exact hrest before d after (List.cons.inj heq).2 hd

/-- No line of nothing ends in padding. -/
theorem unpadded_nil : Unpadded [] := fun before c after heq => by simp at heq

/-- Stripping leaves no padding at the end of a line. -/
theorem unpadded_stripLineEnds (s : Text) : Unpadded (stripLineEnds s) := by
  induction s with
  | nil => exact unpadded_nil
  | cons c s ih =>
    rw [stripLineEnds]
    split
    · exact ih
    · next hkept => exact unpadded_cons_iff.mpr ⟨fun hc => by simpa [hc] using hkept, ih⟩

/-- Where no padding stands at the end of a line nothing is stripped. -/
theorem stripLineEnds_eq_self (h : Unpadded s) : stripLineEnds s = s := by
  induction s with
  | nil => rfl
  | cons c s ih =>
    obtain ⟨hfirst, hrest⟩ := unpadded_cons_iff.mp h
    have hkept : (isPadding c && atLineEnd s) = false := by
      cases hc : isPadding c with
      | false => rfl
      | true => simp [hfirst hc]
    rw [stripLineEnds, ih hrest, hkept]
    rfl

/-! ### Line breaks -/

/-- A line break is written unless two stand before it. -/
theorem shrinkBreaks_break (breaks : Nat) (s : Text) :
    shrinkBreaks breaks ('\n' :: s) =
      if breaks < 2 then '\n' :: shrinkBreaks (breaks + 1) s else shrinkBreaks breaks s := rfl

/-- Another character is written, and ends a run of line breaks. -/
theorem shrinkBreaks_of_ne (hc : c ≠ '\n') (breaks : Nat) (s : Text) :
    shrinkBreaks breaks (c :: s) = c :: shrinkBreaks 0 s := by
  simp [shrinkBreaks, hc]

/-- Behind another character than a line break, shrinking leaves the end of the line. -/
@[simp] theorem atLineEnd_shrinkBreaks_zero (s : Text) :
    atLineEnd (shrinkBreaks 0 s) = atLineEnd s := by
  cases s with
  | nil => rfl
  | cons c s =>
    by_cases hc : c = '\n'
    · subst hc
      rfl
    · rw [shrinkBreaks_of_ne hc]
      rfl

/-- Shrinking brings no padding to the end of a line. -/
theorem Unpadded.shrinkBreaks (h : Unpadded s) (breaks : Nat) :
    Unpadded (Layout.shrinkBreaks breaks s) := by
  induction s generalizing breaks with
  | nil => exact unpadded_nil
  | cons c s ih =>
    obtain ⟨hfirst, hrest⟩ := unpadded_cons_iff.mp h
    by_cases hc : c = '\n'
    · subst hc
      rw [shrinkBreaks_break]
      split
      · exact unpadded_cons_iff.mpr ⟨fun hpadding => by simp [isPadding] at hpadding, ih hrest _⟩
      · exact ih hrest _
    · rw [shrinkBreaks_of_ne hc]
      refine unpadded_cons_iff.mpr ⟨fun hpadding => ?_, ih hrest 0⟩
      simp [hfirst hpadding]

/-- Up to two line breaks and another character do not matter for what follows. -/
theorem hasFewBreaks_append_cons_iff {breaks : Nat} (hbreaks : breaks ≤ 2) (hc : c ≠ '\n') :
    HasFewBreaks (List.replicate breaks '\n' ++ c :: s) ↔ HasFewBreaks s := by
  have hne : '\n' ≠ c := Ne.symm hc
  interval_cases breaks <;>
    simp [HasFewBreaks, List.replicate, List.infix_cons_iff, List.cons_prefix_cons, hne]

/-- A line break belongs to the run before it. -/
theorem replicate_append_break (breaks : Nat) (s : Text) :
    List.replicate breaks '\n' ++ '\n' :: s = List.replicate (breaks + 1) '\n' ++ s := by
  rw [List.replicate_succ', List.append_assoc, List.singleton_append]

/-- Shrinking leaves no more than two line breaks in a row, those that stand before it counted. -/
theorem hasFewBreaks_shrinkBreaks (s : Text) {breaks : Nat} (hbreaks : breaks ≤ 2) :
    HasFewBreaks (List.replicate breaks '\n' ++ shrinkBreaks breaks s) := by
  induction s generalizing breaks with
  | nil =>
    intro hthree
    have hlength := hthree.length_le
    simp only [shrinkBreaks, List.append_nil, List.length_replicate, List.length_cons] at hlength
    omega
  | cons c s ih =>
    by_cases hc : c = '\n'
    · subst hc
      rw [shrinkBreaks_break]
      split
      · next hfew =>
        rw [replicate_append_break]
        exact ih hfew
      · exact ih hbreaks
    · rw [shrinkBreaks_of_ne hc, hasFewBreaks_append_cons_iff hbreaks hc]
      exact ih (Nat.zero_le 2)

/-- Where no more than two line breaks stand in a row, those before counted, all of them stay. -/
theorem shrinkBreaks_eq_self {breaks : Nat} (hbreaks : breaks ≤ 2)
    (h : HasFewBreaks (List.replicate breaks '\n' ++ s)) : shrinkBreaks breaks s = s := by
  induction s generalizing breaks with
  | nil => rfl
  | cons c s ih =>
    by_cases hc : c = '\n'
    · subst hc
      have hfew : breaks < 2 := by
        by_contra hmany
        obtain rfl : breaks = 2 := by omega
        exact h (List.prefix_append ['\n', '\n', '\n'] s).isInfix
      rw [replicate_append_break] at h
      rw [shrinkBreaks_break, if_pos hfew, ih hfew h]
    · rw [hasFewBreaks_append_cons_iff hbreaks hc] at h
      rw [shrinkBreaks_of_ne hc, ih (Nat.zero_le 2) h]

/-! ### Line by line -/

/-- What is dropped from the end of a text with one character more in front. -/
theorem rdropWhile_cons (p : Char → Bool) (c : Char) (s : Text) :
    List.rdropWhile p (c :: s) =
      if p c && (List.rdropWhile p s).isEmpty then [] else c :: List.rdropWhile p s := by
  rw [List.rdropWhile, List.rdropWhile, List.reverse_cons, List.dropWhile_append]
  cases hrest : s.reverse.dropWhile p with
  | nil => cases hc : p c <;> simp [hc]
  | cons d r => simp

/-- Stripping goes through the first line and then through what follows it. -/
theorem stripLineEnds_line_append (hline : '\n' ∉ s) (hend : atLineEnd (stripLineEnds t)) :
    stripLineEnds (s ++ t) = List.rdropWhile isPadding s ++ stripLineEnds t := by
  induction s with
  | nil => rfl
  | cons c s ih =>
    rw [List.mem_cons, not_or] at hline
    have hempty : atLineEnd (List.rdropWhile isPadding s ++ stripLineEnds t) =
        (List.rdropWhile isPadding s).isEmpty := by
      cases hkept : List.rdropWhile isPadding s with
      | nil => simpa using hend
      | cons d r =>
        have hd : d ∈ s := by
          have hmem : d ∈ List.rdropWhile isPadding s := by simp [hkept]
          exact (List.rdropWhile_prefix isPadding s).subset hmem
        have hne : d ≠ '\n' := fun heq => hline.2 (heq ▸ hd)
        simp [atLineEnd, hne]
    rw [List.cons_append, stripLineEnds, ih hline.2, hempty, rdropWhile_cons]
    split
    · next hpadding =>
      simp only [Bool.and_eq_true, List.isEmpty_iff] at hpadding
      rw [hpadding.2, List.nil_append]
    · rfl

/-- **The first pass, line by line.** Each line loses the padding at its end. -/
theorem stripLineEnds_eq (s : Text) :
    stripLineEnds s =
      List.intercalate ['\n'] ((Text.lines s).map (List.rdropWhile isPadding)) := by
  induction hlength : s.length using Nat.strongRecOn generalizing s with
  | ind length ih =>
    by_cases hbreak : '\n' ∈ s
    · obtain ⟨line, rest, rfl, hline⟩ := List.eq_append_cons_of_mem hbreak
      have hlines : Text.lines (line ++ '\n' :: rest) = line :: Text.lines rest :=
        List.splitOn_append_cons_self_of_not_mem hline rest
      have hrest := ih rest.length (by simp at hlength; omega) rest rfl
      have hmore : (Text.lines rest).map (List.rdropWhile isPadding) ≠ [] :=
        fun heq => List.splitOn_ne_nil '\n' rest (List.map_eq_nil_iff.mp heq)
      have hstrip : stripLineEnds ('\n' :: rest) = '\n' :: stripLineEnds rest := rfl
      rw [stripLineEnds_line_append hline rfl, hstrip, hlines, List.map_cons,
        List.intercalate_cons_of_ne_nil hmore, hrest]
      simp
    · have hlines : Text.lines s = [s] := List.splitOn_eq_singleton hbreak
      have hstrip := stripLineEnds_line_append hbreak (t := []) rfl
      rw [List.append_nil] at hstrip
      rw [hstrip, hlines, List.map_singleton, List.intercalate_singleton]
      exact List.append_nil _

/-! ### Run by run -/

/-- The runs of line breaks of a text, and its other characters one by one. -/
def runs (s : Text) : List Text := s.splitBy fun a b => a == '\n' && b == '\n'

/-- The text with each run of three or more line breaks made one of two. -/
def shrinkRuns (s : Text) : Text :=
  ((runs s).map fun run => if 2 < run.length then ['\n', '\n'] else run).flatten

/-- A character that is no line break is no part of a run. -/
theorem shrinkRuns_of_ne (hc : c ≠ '\n') (s : Text) : shrinkRuns (c :: s) = c :: shrinkRuns s := by
  have hruns : runs ([c] ++ s) = runs [c] ++ runs s := List.splitBy_append (by simp [hc])
  have hone : runs [c] = [[c]] := rfl
  rw [List.singleton_append, hone] at hruns
  rw [shrinkRuns, hruns]
  rfl

/-- A run of line breaks goes as far as there are line breaks. -/
theorem shrinkRuns_breaks (count : Nat) (hs : ∀ r, s ≠ '\n' :: r) :
    shrinkRuns (List.replicate count '\n' ++ s) =
      List.replicate (min count 2) '\n' ++ shrinkRuns s := by
  cases count with
  | zero => simp
  | succ count =>
    have hsplit : runs (List.replicate (count + 1) '\n' ++ s) =
        runs (List.replicate (count + 1) '\n') ++ runs s := by
      refine List.splitBy_append fun x _ y hy => ?_
      cases s with
      | nil => simp at hy
      | cons d r =>
        have hd : d ≠ '\n' := fun heq => hs r (by rw [heq])
        obtain rfl : d = y := by simpa using hy
        simp [hd]
    have hone : runs (List.replicate (count + 1) '\n') = [List.replicate (count + 1) '\n'] := by
      refine List.splitBy_of_isChain (by simp) (List.isChain_replicate_of_rel _ rfl)
    rw [shrinkRuns, hsplit, hone]
    have hrun : (if 2 < (List.replicate (count + 1) '\n').length then ['\n', '\n'] else
        List.replicate (count + 1) '\n') = List.replicate (min (count + 1) 2) '\n' := by
      rw [List.length_replicate]
      split
      · next hlong => rw [Nat.min_eq_right (Nat.le_of_lt hlong)]; rfl
      · next hshort => rw [Nat.min_eq_left (Nat.le_of_not_lt hshort)]
    rw [List.singleton_append, List.map_cons, List.flatten_cons, hrun]
    rfl

/-- A run of line breaks is shrunk to as many as there may still be. -/
theorem shrinkBreaks_replicate (breaks count : Nat) (s : Text) :
    shrinkBreaks breaks (List.replicate count '\n' ++ s) =
      List.replicate (min count (2 - breaks)) '\n' ++
        shrinkBreaks (breaks + min count (2 - breaks)) s := by
  induction count generalizing breaks with
  | zero => simp
  | succ count ih =>
    rw [List.replicate_succ, List.cons_append, shrinkBreaks_break]
    split
    · next hfew =>
      have hmin : min (count + 1) (2 - breaks) = min count (2 - (breaks + 1)) + 1 := by omega
      rw [ih, hmin, List.replicate_succ, List.cons_append]
      congr 3
      omega
    · next hmany =>
      have hnone : 2 - breaks = 0 := by omega
      rw [ih, hnone, Nat.min_zero, Nat.min_zero]

/-- Where a run of line breaks is over it does not matter how long it was. -/
theorem shrinkBreaks_eq_zero (hs : ∀ r, s ≠ '\n' :: r) (breaks : Nat) :
    shrinkBreaks breaks s = shrinkBreaks 0 s := by
  cases s with
  | nil => rfl
  | cons c s =>
    have hc : c ≠ '\n' := fun heq => hs s (by rw [heq])
    rw [shrinkBreaks_of_ne hc, shrinkBreaks_of_ne hc]

/-- A text is a run of line breaks, perhaps none, and something else behind it. -/
theorem exists_breaks_append (s : Text) :
    ∃ count rest, s = List.replicate count '\n' ++ rest ∧ ∀ r, rest ≠ '\n' :: r := by
  induction s with
  | nil => exact ⟨0, [], rfl, nofun⟩
  | cons c s ih =>
    by_cases hc : c = '\n'
    · obtain ⟨count, rest, heq, hrest⟩ := ih
      exact ⟨count + 1, rest, by rw [hc, heq]; rfl, hrest⟩
    · exact ⟨0, c :: s, rfl, fun r heq => hc (List.cons.inj heq).1⟩

/-- **The second pass, run by run.** Each run of three or more line breaks becomes one of two. -/
theorem shrinkBreaks_zero_eq (s : Text) : shrinkBreaks 0 s = shrinkRuns s := by
  induction hlength : s.length using Nat.strongRecOn generalizing s with
  | ind length ih =>
    obtain ⟨count, rest, rfl, hrest⟩ := exists_breaks_append s
    rw [shrinkBreaks_replicate, shrinkRuns_breaks count hrest, shrinkBreaks_eq_zero hrest]
    congr 1
    cases rest with
    | nil => rfl
    | cons c r =>
      have hc : c ≠ '\n' := fun heq => hrest r (by rw [heq])
      have hshorter : r.length < length := by
        simp only [List.length_append, List.length_cons] at hlength
        omega
      rw [shrinkBreaks_of_ne hc, shrinkRuns_of_ne hc, ih r.length hshorter r rfl]

/-! ### Tidied text -/

/-- Whether a character is none of the layout: no padding and no line break. -/
def isInk (c : Char) : Bool := !(isPadding c || c == '\n')

/-- Stripping takes away layout only. -/
@[simp] theorem filter_isInk_stripLineEnds (s : Text) :
    (stripLineEnds s).filter isInk = s.filter isInk := by
  induction s with
  | nil => rfl
  | cons c s ih =>
    rw [stripLineEnds]
    split
    · next hpadding =>
      have hc : isInk c = false := by
        simp only [Bool.and_eq_true] at hpadding
        simp [isInk, hpadding.1]
      rw [ih, List.filter_cons_of_neg (by simp [hc])]
    · rw [List.filter_cons, List.filter_cons, ih]

/-- Shrinking takes away layout only. -/
@[simp] theorem filter_isInk_shrinkBreaks (breaks : Nat) (s : Text) :
    (shrinkBreaks breaks s).filter isInk = s.filter isInk := by
  induction s generalizing breaks with
  | nil => rfl
  | cons c s ih =>
    by_cases hc : c = '\n'
    · subst hc
      have hbreak (r : Text) : ('\n' :: r).filter isInk = r.filter isInk :=
        List.filter_cons_of_neg (by decide)
      rw [shrinkBreaks_break, hbreak]
      split
      · rw [hbreak, ih]
      · exact ih breaks
    · rw [shrinkBreaks_of_ne hc, List.filter_cons, List.filter_cons, ih]

/-- A tidied text is tidy. -/
theorem isTidy_tidy (s : Text) : IsTidy (tidy s) where
  padding := (unpadded_stripLineEnds s).shrinkBreaks 0
  breaks := hasFewBreaks_shrinkBreaks (stripLineEnds s) (Nat.zero_le 2)

/-- The tidy texts are those that stay as they are. -/
theorem isTidy_iff : IsTidy s ↔ tidy s = s := by
  constructor
  · rintro ⟨hpadding, hbreaks⟩
    rw [tidy, stripLineEnds_eq_self hpadding, shrinkBreaks_eq_self (Nat.zero_le 2) hbreaks]
  · intro h
    rw [← h]
    exact isTidy_tidy s

instance : Decidable (IsTidy s) := decidable_of_iff _ isTidy_iff.symm

/-- **Tidying gives a normal form.** The tidied text is tidy. It is made of the lines of the text
without the padding at their ends, with each run of three or more line breaks in between made one of
two. A tidy text stays as it is, so to tidy a second time changes nothing; and all characters but
padding and line breaks are kept in their order. -/
theorem tidy_normalForm (s : Text) :
    IsTidy (tidy s) ∧
      tidy s = shrinkRuns
        (List.intercalate ['\n'] ((Text.lines s).map (List.rdropWhile isPadding))) ∧
      (IsTidy s → tidy s = s) ∧ tidy (tidy s) = tidy s ∧
      (tidy s).filter isInk = s.filter isInk := by
  refine ⟨isTidy_tidy s, ?_, isTidy_iff.mp, isTidy_iff.mp (isTidy_tidy s), ?_⟩
  · rw [tidy, shrinkBreaks_zero_eq, stripLineEnds_eq]
  · simp [tidy]

/-- Lines of padding become a run of line breaks that is shrunk; a carriage return is no padding,
and what stands before it stays. The result stays as it is. -/
theorem tidy_normalForm_of_blank_lines :
    let s : Text := "\na \t\n \n\t\n\n b \r\n \t".toList
    let tidied : Text := "\na\n\n b \r\n".toList
    tidy s = tidied ∧ IsTidy tidied ∧ tidy tidied = tidied := by
  intro s tidied
  have htidy : IsTidy tidied := by decide
  exact ⟨by decide, htidy, (tidy_normalForm tidied).2.2.1 htidy⟩

end Stencil.Layout
