import Stencil.Text.Basic
import Mathlib.Data.List.DropRight
import Mathlib.Data.List.Infix

/-!
# Texts without something at their ends

What is left when characters of a class are taken from both ends of a text: a piece of the text that
neither begins nor ends with such a character, and that has all other characters of the text.
-/

namespace Stencil.Text

variable {p : Char → Bool} {s : Text}

/-- Trimming drops characters at the front, and then at the end. -/
theorem trim_eq (p : Char → Bool) (s : Text) : trim p s = (s.dropWhile p).rdropWhile p := rfl

/-- What is left when both ends are trimmed is a piece of the text. -/
theorem isInfix_trim (p : Char → Bool) (s : Text) : trim p s <:+: s :=
  (List.rdropWhile_prefix p _).isInfix.trans (List.dropWhile_suffix p).isInfix

/-- A trimmed text does not begin with a character of the class. -/
theorem not_head_trim {c : Char} (h : (trim p s).head? = some c) : p c = false := by
  obtain ⟨rest, htrim⟩ := List.head?_eq_some_iff.mp h
  have hprefix := List.rdropWhile_prefix p (s.dropWhile p)
  rw [← trim_eq, htrim] at hprefix
  obtain ⟨more, hdrop⟩ := hprefix
  have hsome : s.dropWhile p ≠ [] := by simp [← hdrop]
  have hhead := List.head_dropWhile_not p hsome
  simpa [← hdrop] using hhead

/-- A trimmed text does not end with a character of the class. -/
theorem not_getLast_trim {c : Char} (h : (trim p s).getLast? = some c) : p c = false := by
  obtain ⟨rest, htrim⟩ := List.getLast?_eq_some_iff.mp h
  have hend : List.rdropWhile p (s.dropWhile p) = rest ++ [c] := (trim_eq p s).symm.trans htrim
  have hnot := List.rdropWhile_last_not p (s.dropWhile p) (by simp [hend])
  simpa [hend] using hnot

/-- Dropping characters of the class at the front takes no other character away. -/
@[simp] theorem filter_dropWhile (p : Char → Bool) (s : Text) :
    (s.dropWhile p).filter (!p ·) = s.filter (!p ·) := by
  induction s with
  | nil => rfl
  | cons c s ih =>
    cases hc : p c with
    | true => rw [List.dropWhile_cons_of_pos hc, ih, List.filter_cons_of_neg (by simp [hc])]
    | false => rw [List.dropWhile_cons_of_neg (by simp [hc])]

/-- Trimming takes no character outside the class away. -/
@[simp] theorem filter_trim (p : Char → Bool) (s : Text) :
    (trim p s).filter (!p ·) = s.filter (!p ·) := by
  simp [trim]

/-- A character outside the class stays. -/
theorem mem_trim {c : Char} (hc : c ∈ s) (hp : p c = false) : c ∈ trim p s := by
  have hkept : c ∈ (trim p s).filter (!p ·) := by
    rw [filter_trim]
    exact List.mem_filter.mpr ⟨hc, by simp [hp]⟩
  exact (List.mem_filter.mp hkept).1

/-- A text with no character of the class at either end stays as it is. -/
theorem trim_eq_self (hfirst : ∀ c, s.head? = some c → p c = false)
    (hlast : ∀ c, s.getLast? = some c → p c = false) : trim p s = s := by
  have hdrop : s.dropWhile p = s := by
    cases s with
    | nil => rfl
    | cons c s => rw [List.dropWhile_cons_of_neg (by simp [hfirst c rfl])]
  have hend : List.rdropWhile p s = s := List.rdropWhile_eq_self_iff.mpr fun hsome => by
    simp [hlast _ (List.getLast?_eq_some_getLast hsome)]
  rw [trim_eq, hdrop, hend]

/-- A text without characters of the class stays as it is. -/
theorem trim_eq_self_of_forall (h : ∀ c ∈ s, p c = false) : trim p s = s :=
  trim_eq_self (fun c hc => h c (List.mem_of_head? hc)) fun c hc => h c (List.mem_of_getLast? hc)

end Stencil.Text
