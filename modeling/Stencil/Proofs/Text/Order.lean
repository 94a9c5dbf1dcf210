import Stencil.Text.Basic
import Stencil.Proofs.Distinct

/-!
# Texts in order

Texts are ordered by their characters, a beginning before what it begins. The order is linear, so a
list of names that is sorted and told without repetitions is strictly ascending.
-/

namespace Stencil.Text

/-- Of two texts one is at most the other. -/
theorem le_total (s t : Text) : le s t || le t s := by
  induction s generalizing t with
  | nil => simp [le]
  | cons a s ih =>
    cases t with
    | nil => simp [le]
    | cons b t =>
      by_cases hab : a = b
      · subst hab
        simpa [le] using ih t
      · have hba : b ≠ a := Ne.symm hab
        simpa [le, hab, hba] using Nat.le_total a.toNat b.toNat

/-- Texts that are at most each other are equal. -/
theorem le_antisymm {s t : Text} (hst : le s t) (hts : le t s) : s = t := by
  induction s generalizing t with
  | nil =>
    cases t with
    | nil => rfl
    | cons b t => simp [le] at hts
  | cons a s ih =>
    cases t with
    | nil => simp [le] at hst
    | cons b t =>
      by_cases hab : a = b
      · subst hab
        simp only [le, beq_self_eq_true, if_true] at hst hts
        rw [ih hst hts]
      · have hba : b ≠ a := Ne.symm hab
        simp only [le, beq_iff_eq, hab, hba, if_false, decide_eq_true_eq] at hst hts
        exact absurd (Char.toNat_inj.mp (Nat.le_antisymm hst hts)) hab

/-- The order of texts is transitive. -/
theorem le_trans {s t u : Text} (hst : le s t) (htu : le t u) : le s u := by
  induction s generalizing t u with
  | nil => simp [le]
  | cons a s ih =>
    cases t with
    | nil => simp [le] at hst
    | cons b t =>
      cases u with
      | nil => simp [le] at htu
      | cons c u =>
        by_cases hab : a = b
        · subst hab
          by_cases hac : a = c
          · subst hac
            simp only [le, beq_self_eq_true, if_true] at hst htu ⊢
            exact ih hst htu
          · simp only [le, beq_iff_eq, hac, if_false] at htu ⊢
            exact htu
        · by_cases hbc : b = c
          · subst hbc
            simp only [le, beq_iff_eq, hab, if_false] at hst ⊢
            exact hst
          · have hac : a ≠ c := by
              rintro rfl
              simp only [le, beq_iff_eq, hab, hbc, if_false, decide_eq_true_eq] at hst htu
              exact hab (Char.toNat_inj.mp (Nat.le_antisymm hst htu))
            simp only [le, beq_iff_eq, hab, hbc, hac, if_false, decide_eq_true_eq] at hst htu ⊢
            exact Nat.le_trans hst htu

/-- What two texts both begin with does not matter for their order. -/
@[simp] theorem le_append (start s t : Text) : le (start ++ s) (start ++ t) = le s t := by
  induction start with
  | nil => rfl
  | cons c start ih => simpa [le] using ih

/-- Names that are sorted are in order. -/
theorem pairwise_mergeSort (names : List Text) : (names.mergeSort le).Pairwise fun a b => le a b := by
  apply List.pairwise_mergeSort
  · intro a b c
    exact le_trans
  · exact le_total

/-- Names that are sorted and told without repetitions are strictly ascending. -/
theorem pairwise_sorted_eraseDups (names : List Text) :
    (names.mergeSort le).eraseDups.Pairwise fun a b => le a b ∧ a ≠ b := by
  have hsorted := pairwise_mergeSort names
  have hdistinct : (names.mergeSort le).eraseDups.Pairwise fun a b => a ≠ b :=
    nodup_eraseDups _
  exact (hsorted.sublist (sublist_eraseDups _)).and hdistinct

/-- Strictly ascending names are told by which names they are. -/
theorem eq_of_ascending {names others : List Text} (h : names.Pairwise fun a b => le a b ∧ a ≠ b)
    (hothers : others.Pairwise fun a b => le a b ∧ a ≠ b)
    (hmem : ∀ name, name ∈ names ↔ name ∈ others) : names = others := by
  have hperm : names.Perm others :=
    (List.perm_ext_iff_of_nodup (h.imp And.right) (hothers.imp And.right)).mpr hmem
  exact hperm.eq_of_pairwise (fun a b _ _ hab hba => le_antisymm hab.1 hba.1) h hothers

end Stencil.Text
