import Mathlib.Data.Finset.Card
import Mathlib.Data.List.Nodup

/-!
# Lists without repetitions

The names that a store knows and the sources that a cache has seen are told without repetitions, by
their first occurrences. This keeps the order, agrees with filtering, and counts the members.
-/

namespace Stencil

/-- Induction along the first occurrences of a list: what follows a member is looked at without the
member's repetitions. -/
theorem firsts_induction {α : Type} [BEq α] {motive : List α → Prop} (nil : motive [])
    (cons : ∀ a rest, motive (rest.filter fun b => !b == a) → motive (a :: rest)) (l : List α) :
    motive l := by
  induction hlength : l.length using Nat.strong_induction_on generalizing l with
  | _ n ih =>
    cases l with
    | nil => exact nil
    | cons a rest =>
      have hshorter : (rest.filter fun b => !b == a).length < n := by
        have := List.length_filter_le (fun b => !b == a) rest
        simp only [List.length_cons] at hlength
        omega
      exact cons a rest (ih _ hshorter _ rfl)

variable {α : Type} [BEq α]

/-- First occurrences keep the order of the list. -/
theorem sublist_eraseDups (l : List α) : l.eraseDups.Sublist l := by
  induction l using firsts_induction with
  | nil => exact List.Sublist.slnil
  | cons a rest ih =>
    rw [List.eraseDups_cons]
    exact (ih.trans List.filter_sublist).cons_cons a

variable [LawfulBEq α]

/-- First occurrences do not repeat. -/
theorem nodup_eraseDups (l : List α) : l.eraseDups.Nodup := by
  induction l using firsts_induction with
  | nil => exact List.nodup_nil
  | cons a rest ih =>
    have hfresh : a ∉ (rest.filter fun b => !b == a).eraseDups := by
      simp [List.mem_eraseDups]
    rw [List.eraseDups_cons]
    exact List.nodup_cons.mpr ⟨hfresh, ih⟩

/-- Filtering first occurrences gives the first occurrences of what is filtered. -/
theorem filter_eraseDups (p : α → Bool) (l : List α) :
    l.eraseDups.filter p = (l.filter p).eraseDups := by
  induction l using firsts_induction with
  | nil => rfl
  | cons a rest ih =>
    rw [List.eraseDups_cons]
    by_cases ha : p a
    · have hswap : (rest.filter fun b => !b == a).filter p =
          (rest.filter p).filter fun b => !b == a := by
        rw [List.filter_filter, List.filter_filter]
        exact List.filter_congr fun b _ => Bool.and_comm _ _
      rw [List.filter_cons_of_pos ha, ih, hswap, List.filter_cons_of_pos ha, List.eraseDups_cons]
    · have hgone : (rest.filter fun b => !b == a).filter p = rest.filter p := by
        rw [List.filter_filter]
        refine List.filter_congr fun b _ => ?_
        by_cases hb : b = a
        · simp [hb, ha]
        · simp [hb]
      rw [List.filter_cons_of_neg ha, ih, hgone, List.filter_cons_of_neg ha]

/-- A member that does not stand among the first ones can be taken out without a change to them. -/
theorem take_filter_of_not_mem_take {a : α} {l : List α} {n : Nat}
    (h : a ∉ l.take n) : (l.filter (· != a)).take n = l.take n := by
  induction l generalizing n with
  | nil => rfl
  | cons b rest ih =>
    cases n with
    | zero => simp
    | succ n =>
      rw [List.take_succ_cons, List.mem_cons, not_or] at h
      have hb : b ≠ a := Ne.symm h.1
      rw [List.filter_cons_of_pos (by simpa using hb), List.take_succ_cons, List.take_succ_cons,
        ih h.2]

/-- A member that stands among the first ones leaves one place to the others. -/
theorem take_filter_of_mem_take {a : α} {l : List α} {n : Nat}
    (hnodup : l.Nodup) (h : a ∈ l.take (n + 1)) :
    (l.filter (· != a)).take n = (l.take (n + 1)).filter (· != a) := by
  induction l generalizing n with
  | nil => simp
  | cons b rest ih =>
    obtain ⟨hb, hrest⟩ := List.nodup_cons.mp hnodup
    rw [List.take_succ_cons]
    by_cases hba : b = a
    · subst hba
      -- the member itself goes, and it does not stand among the others
      have hkeep {l : List α} (hl : b ∉ l) : l.filter (· != b) = l := by
        refine List.filter_eq_self.mpr fun c hc => ?_
        simpa using fun hcb : c = b => hl (hcb ▸ hc)
      rw [List.filter_cons_of_neg (by simp), List.filter_cons_of_neg (by simp), hkeep hb,
        hkeep fun hmem => hb (List.mem_of_mem_take hmem)]
    · rw [List.take_succ_cons, List.mem_cons, or_iff_right (Ne.symm hba)] at h
      cases n with
      | zero => simp at h
      | succ n =>
        rw [List.filter_cons_of_pos (by simpa using hba),
          List.filter_cons_of_pos (by simpa using hba), List.take_succ_cons, ih hrest h]

/-- There are as many first occurrences as members, whichever way the list is read. -/
theorem length_eraseDups_reverse [DecidableEq α] (l : List α) :
    l.reverse.eraseDups.length = l.toFinset.card := by
  have hmembers : l.reverse.eraseDups.toFinset = l.toFinset := by
    ext a
    simp [List.mem_eraseDups]
  rw [← hmembers, List.toFinset_card_of_nodup (nodup_eraseDups _)]

end Stencil
