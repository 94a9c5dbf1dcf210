import Stencil.Text.Word

/-!
# Marks that begin nowhere in a text

The scanners of the template language walk over a text character by character until a mark begins.
This file says when a mark begins nowhere in a text, whatever stands behind the text: such a text is
passed over by every scanner that looks for the mark. Blanks, names and braces have no characters in
common, which is what makes the readers of tags deterministic.
-/

namespace Stencil.Text

/-- `mark` begins at no place of a text, whatever follows the text. -/
def Avoids (mark : Text) : Text → Prop
  | [] => True
  | c :: r => (∀ after, ¬ mark <+: c :: (r ++ after)) ∧ Avoids mark r

/-- Two texts that avoid a mark avoid it together, since neither lets it begin near its end. -/
theorem Avoids.append {mark s t : Text} (hs : Avoids mark s) (ht : Avoids mark t) :
    Avoids mark (s ++ t) := by
  induction s with
  | nil => exact ht
  | cons c r ih =>
    obtain ⟨hc, hr⟩ := hs
    refine ⟨fun after => ?_, ih hr⟩
    have hlater := hc (t ++ after)
    rwa [← List.append_assoc] at hlater

/-- A text that avoids a mark avoids every mark that begins with it. -/
theorem Avoids.of_prefix {mark longer s : Text} (hs : Avoids mark s) (h : mark <+: longer) :
    Avoids longer s := by
  induction s with
  | nil => trivial
  | cons c r ih => exact ⟨fun after hlonger => hs.1 after (h.trans hlonger), ih hs.2⟩

/-- The end of a text that avoids a mark avoids it. -/
theorem Avoids.of_append {mark s t : Text} (h : Avoids mark (s ++ t)) : Avoids mark t := by
  induction s with
  | nil => exact h
  | cons c r ih => exact ih h.2

/-- A mark that stands in a text behind one that avoids it stands in what follows. -/
theorem Avoids.infix_of_infix_append {mark s t : Text} (hs : Avoids mark s)
    (h : mark <:+: s ++ t) : mark <:+: t := by
  induction s with
  | nil => exact h
  | cons c r ih =>
    rcases List.infix_cons_iff.mp h with hfirst | hlater
    · exact absurd hfirst (hs.1 t)
    · exact ih hs.2 hlater

/-- A mark that a text avoids does not stand in it. -/
theorem not_infix_of_avoids {mark s : Text} (hmark : mark ≠ []) (h : Avoids mark s) :
    ¬ mark <:+: s := by
  intro hinfix
  rw [← List.append_nil s] at hinfix
  exact hmark (List.infix_nil.mp (h.infix_of_infix_append hinfix))

/-- A text without the first character of a mark avoids the mark. -/
theorem avoids_of_not_mem {c : Char} {mark s : Text} (h : c ∉ s) : Avoids (c :: mark) s := by
  induction s with
  | nil => trivial
  | cons d r ih =>
    refine ⟨fun after hbegin => h ?_, ih fun hr => h (List.mem_cons_of_mem _ hr)⟩
    rw [(List.cons_prefix_cons.mp hbegin).1]
    exact List.mem_cons_self

/-- A pair of equal characters is avoided exactly by the texts in which it does not stand and that
do not end in its character. -/
theorem avoids_pair_iff {c : Char} {s : Text} :
    Avoids [c, c] s ↔ ¬ [c, c] <:+: s ∧ ¬ [c] <:+ s := by
  induction s with
  | nil => simp [Avoids]
  | cons d r ih =>
    have hbegin : (∀ after, ¬ [c, c] <+: d :: (r ++ after)) ↔
        ¬ [c, c] <+: d :: r ∧ ¬ (d = c ∧ r = []) := by
      cases r with
      | nil =>
        constructor
        · intro h
          refine ⟨by simp, fun ⟨hd, _⟩ => h [c] ?_⟩
          simp [hd]
        · rintro ⟨-, hd⟩ after hpair
          exact hd ⟨(List.cons_prefix_cons.mp hpair).1.symm, rfl⟩
      | cons e r => simp
    have hend : [c] <:+ d :: r ↔ (d = c ∧ r = []) ∨ [c] <:+ r := by
      rw [List.suffix_cons_iff, List.cons.injEq, eq_comm, eq_comm (a := ([] : Text))]
    rw [Avoids, hbegin, ih, List.infix_cons_iff, hend, not_or, not_or, and_and_and_comm]

/-! ### Classes of characters -/

/-- A character of a class is none of some characters outside of the class. -/
theorem not_mem_of_all {p : Char → Bool} {chars : List Char} (h : chars.all fun d => !p d)
    {c : Char} (hc : p c) : c ∉ chars := by
  intro hmem
  have hout := List.all_eq_true.mp h c hmem
  rw [hc] at hout
  contradiction

/-- No blank is a word character. -/
theorem isWord_eq_false_of_isBlank {c : Char} (h : isBlank c) : isWord c = false := by
  simp only [isBlank, Bool.or_eq_true, Bool.and_eq_true, decide_eq_true_eq] at h
  have hascii (hsmall : c.toNat ≤ 32) : isWord c = false := by
    have hval : c.val.toNat ≤ 32 := hsmall
    have hline : c ≠ '_' := by
      rintro rfl
      exact absurd hsmall (by decide)
    have hplace : c.toNat < 128 := by omega
    have hletter : ¬ c.isAlphanum := by
      intro halphanum
      have hranges : (decide (c.val ≥ 65 ∧ c.val ≤ 90)
          || (decide (c.val ≥ 97) && decide (c.val ≤ 122))
          || (decide (c.val ≥ 48) && decide (c.val ≤ 57))) = true := halphanum
      simp only [Bool.or_eq_true, Bool.and_eq_true, decide_eq_true_eq, ge_iff_le,
        UInt32.le_iff_toNat_le] at hranges
      change ((65 ≤ c.val.toNat ∧ _) ∨ (97 ≤ c.val.toNat ∧ _)) ∨ (48 ≤ c.val.toNat ∧ _) at hranges
      omega
    simp [isWord, hplace, isAsciiWord, hletter, hline]
  rcases h with (h | h) | h
  · exact hascii (by omega)
  · exact hascii (by omega)
  · have hwide : wideBlanks.all fun d => !isWord d := by decide +kernel
    rw [Bool.eq_false_iff]
    exact fun hword => not_mem_of_all hwide hword (List.contains_iff_mem.mp h)

end Stencil.Text
