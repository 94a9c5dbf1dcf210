import Stencil.Proofs.Html

/-!
# Reading escaped text

The entities that escaping writes are read back in one pass from left to right. No entity begins
with another one, and an ampersand stands in an escaped text only where an entity begins, so the pass
finds the entities that were written and no others. Thus nothing is lost when a text is escaped, also
if it looks like escaped text already.
-/

namespace Stencil.Html

/-- The entities, each with the character that it stands for. -/
def readings : List (Text × Char) :=
  [("&amp;".toList, '&'), ("&lt;".toList, '<'), ("&gt;".toList, '>'), ("&quot;".toList, '"'),
   ("&#39;".toList, '\'')]

/-- A text with characters in place of their entities. The text is read once from left to right, so
what takes the place of an entity is not read again. -/
def unescape : Text → Text
  | [] => []
  | c :: r =>
    match readings.find? fun reading => reading.1.isPrefixOf (c :: r) with
    | some (written, d) => d :: unescape (r.drop (written.length - 1))
    | none => c :: unescape r
termination_by s => s.length
decreasing_by all_goals simp; try omega

variable {c : Char}

/-- A character that has a meaning is read from its entity, whatever follows. -/
theorem find?_entity_append (hc : c ∈ specials) (s : Text) :
    (readings.find? fun reading => reading.1.isPrefixOf (entity c ++ s)) = some (entity c, c) := by
  simp only [specials, List.mem_cons, List.not_mem_nil, or_false] at hc
  rcases hc with rfl | rfl | rfl | rfl | rfl <;> rfl

/-- No entity is read where there is no ampersand. -/
theorem find?_eq_none (hc : c ≠ '&') (s : Text) :
    (readings.find? fun reading => reading.1.isPrefixOf (c :: s)) = none := by
  rw [List.find?_eq_none]
  intro reading hreading hprefix
  have hamps : ∀ reading ∈ readings, reading.1.head? = some '&' := by decide
  obtain ⟨rest, hrest⟩ := List.head?_eq_some_iff.mp (hamps reading hreading)
  rw [hrest, List.isPrefixOf_iff_prefix] at hprefix
  exact hc (List.cons_prefix_cons.mp hprefix).1.symm

/-- A character is read from what was written for it, and the pass goes on behind that. -/
@[simp] theorem unescape_entity_append (c : Char) (s : Text) :
    unescape (entity c ++ s) = c :: unescape s := by
  rcases entity_cases c with ⟨hc, hentity⟩ | ⟨hc, hentity⟩
  · have hamp : c ≠ '&' := by
      rintro rfl
      exact hc (by decide)
    rw [hentity, List.singleton_append, unescape, find?_eq_none hamp]
  · have hfind := find?_entity_append hc s
    obtain ⟨rest, hrest, -⟩ := exists_cons_of_mem_entities hentity
    -- The pass looks at the ampersand and what follows.
    rw [hrest, List.cons_append] at hfind ⊢
    rw [unescape, hfind]
    simp

/-- A text is read back from its escaped form. -/
@[simp] theorem unescape_escape (s : Text) : unescape (escape s) = s := by
  induction s with
  | nil => rw [escape, List.flatMap_nil, unescape]
  | cons c s ih => simp [ih]

example : unescape "&amp;lt; &lt &lt;".toList = "&lt; &lt <".toList := by decide +kernel

/-- What is written for a character that has a meaning is longer than one character. -/
theorem one_lt_length_entity (hc : c ∈ specials) : 1 < (entity c).length := by
  simp only [specials, List.mem_cons, List.not_mem_nil, or_false] at hc
  rcases hc with rfl | rfl | rfl | rfl | rfl <;> decide

/-- Escaping makes no text shorter. -/
theorem length_le_escape (s : Text) : s.length ≤ (escape s).length := by
  induction s with
  | nil => exact Nat.le_refl _
  | cons c s ih =>
    have hentity : 1 ≤ (entity c).length := by
      rcases entity_cases c with ⟨-, hentity⟩ | ⟨hc, -⟩
      · simp [hentity]
      · exact Nat.le_of_lt (one_lt_length_entity hc)
    rw [escape_cons, List.length_append, List.length_cons]
    omega

/-- Escaping leaves exactly those texts as they are that have no characters with a meaning. -/
theorem escape_eq_self_iff {s : Text} : escape s = s ↔ ∀ c ∈ s, c ∉ specials := by
  refine ⟨fun h c hmem hc => ?_, escape_eq_self⟩
  obtain ⟨before, after, rfl⟩ := List.append_of_mem hmem
  -- The character is written longer and nothing else shorter, so the escaped text is longer.
  have hlong := one_lt_length_entity hc
  have hbefore := length_le_escape before
  have hafter := length_le_escape after
  have hlength := congrArg List.length h
  rw [escape_append, escape_cons] at hlength
  simp only [List.length_append, List.length_cons] at hlength
  omega

/-- **Escaping is reversible and leaves nothing dangerous.** An escaped text is harmless, one pass
reads the text back from it, different texts have different escaped forms, and a text is its own
escaped form exactly if it has no characters with a meaning. -/
theorem escape_reversible (s : Text) :
    IsHarmless (escape s) ∧ unescape (escape s) = s ∧
      (∀ other, escape other = escape s → other = s) ∧
      (escape s = s ↔ ∀ c ∈ s, c ∉ specials) := by
  refine ⟨isHarmless_escape s, unescape_escape s, fun other h => ?_, escape_eq_self_iff⟩
  rw [← unescape_escape other, h, unescape_escape]

end Stencil.Html
