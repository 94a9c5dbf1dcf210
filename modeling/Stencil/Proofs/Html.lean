import Mathlib.Data.Bool.AllAny
import Stencil.Html
import Stencil.Layout

/-!
# Text that is harmless in HTML

An escaped text can stand in HTML wherever text can: it opens and closes no tag and no quoted value,
and each ampersand in it begins an entity. Escaping changes only the characters that have a meaning
there, so it does not matter whether a text is tidied before or after it is escaped.
-/

namespace Stencil.Html

/-- The characters that have a meaning in HTML. -/
def specials : List Char := ['<', '>', '"', '\'', '&']

/-- The entities for them. -/
def entities : List Text :=
  ["&lt;".toList, "&gt;".toList, "&quot;".toList, "&#39;".toList, "&amp;".toList]

/-- A text without angle brackets and quotes, in which each ampersand begins an entity. -/
structure IsHarmless (s : Text) : Prop where
  markup : ∀ c ∈ s, c ∉ ['<', '>', '"', '\'']
  ampersand : ∀ before after, s = before ++ '&' :: after → ∃ e ∈ entities, e <+: '&' :: after

/-- A character stands for itself, or it has a meaning and an entity stands for it. -/
theorem entity_cases (c : Char) :
    (c ∉ specials ∧ entity c = [c]) ∨ (c ∈ specials ∧ entity c ∈ entities) := by
  by_cases hc : c ∈ specials
  · right
    refine ⟨hc, ?_⟩
    simp only [specials, List.mem_cons, List.not_mem_nil, or_false] at hc
    rcases hc with rfl | rfl | rfl | rfl | rfl <;> decide
  · left
    refine ⟨hc, ?_⟩
    simp only [specials, List.mem_cons, List.not_mem_nil, or_false, not_or] at hc
    simp [entity, hc]

/-- An entity is an ampersand and characters without a meaning. -/
theorem exists_cons_of_mem_entities {e : Text} (h : e ∈ entities) :
    ∃ rest, e = '&' :: rest ∧ ∀ c ∈ rest, c ∉ specials := by
  simp only [entities, List.mem_cons, List.not_mem_nil, or_false] at h
  rcases h with rfl | rfl | rfl | rfl | rfl <;>
    exact ⟨_, rfl, List.all_iff_forall_prop.mp (by decide)⟩

/-- A text is escaped character by character. -/
@[simp] theorem escape_cons (c : Char) (s : Text) : escape (c :: s) = entity c ++ escape s :=
  List.flatMap_cons

/-- Two texts are escaped one after the other. -/
@[simp] theorem escape_append (s t : Text) : escape (s ++ t) = escape s ++ escape t :=
  List.flatMap_append

/-- A text without characters that have a meaning is its own escaped form. -/
theorem escape_eq_self {s : Text} (h : ∀ c ∈ s, c ∉ specials) : escape s = s := by
  induction s with
  | nil => rfl
  | cons c s ih =>
    rw [List.forall_mem_cons] at h
    rcases entity_cases c with ⟨-, hc⟩ | ⟨hc, -⟩
    · simp [hc, ih h.2]
    · exact absurd hc h.1

/-- What escaping writes for a character has no angle brackets and quotes. -/
theorem not_markup_of_mem_entity {c d : Char} (h : d ∈ entity c) :
    d ∉ ['<', '>', '"', '\''] := by
  have hspecial (d : Char) (hd : d ∉ specials) : d ∉ ['<', '>', '"', '\''] := fun hmem =>
    hd (List.mem_append_left ['&'] hmem)
  rcases entity_cases c with ⟨hc, hentity⟩ | ⟨-, hentity⟩
  · rw [hentity, List.mem_singleton] at h
    exact h ▸ hspecial c hc
  · obtain ⟨rest, hrest, hplain⟩ := exists_cons_of_mem_entities hentity
    rw [hrest] at h
    rcases List.mem_cons.mp h with rfl | h
    · decide
    · exact hspecial d (hplain d h)

/-- An ampersand in what is written for a character begins it, and it is an entity. -/
theorem eq_nil_of_entity_eq {c : Char} {before more : Text}
    (h : entity c = before ++ '&' :: more) : before = [] ∧ entity c ∈ entities := by
  have hmem : '&' ∈ before ++ '&' :: more := List.mem_append_right before List.mem_cons_self
  rcases entity_cases c with ⟨hc, hentity⟩ | ⟨-, hentity⟩
  · rw [← h, hentity, List.mem_singleton] at hmem
    exact absurd (by rw [← hmem]; decide) hc
  · refine ⟨?_, hentity⟩
    obtain ⟨rest, hshape, hplain⟩ := exists_cons_of_mem_entities hentity
    cases before with
    | nil => rfl
    | cons b before =>
      rw [hshape] at h
      have hmem : '&' ∈ rest := by
        rw [(List.cons.inj h).2]
        exact List.mem_append_right before List.mem_cons_self
      exact absurd (by decide) (hplain '&' hmem)

/-- An ampersand in an escaped text begins an entity. -/
theorem exists_entity_of_escape_eq {s before after : Text} (h : escape s = before ++ '&' :: after) :
    ∃ e ∈ entities, e <+: '&' :: after := by
  induction s generalizing before with
  | nil => simp [escape] at h
  | cons c s ih =>
    rw [escape_cons, List.append_eq_append_iff] at h
    rcases h with ⟨more, -, hrest⟩ | ⟨more, hfirst, hrest⟩
    · exact ih hrest
    · cases more with
      | nil =>
        have hrest : escape s = [] ++ '&' :: after := hrest.symm
        exact ih hrest
      | cons d more =>
        obtain ⟨rfl, hafter⟩ := List.cons.inj hrest
        obtain ⟨rfl, hentity⟩ := eq_nil_of_entity_eq hfirst
        exact ⟨_, hentity, hfirst ▸ ⟨escape s, by rw [hafter]; rfl⟩⟩

/-- **Escaped text is harmless.** -/
theorem isHarmless_escape (s : Text) : IsHarmless (escape s) where
  markup d hd := by
    obtain ⟨c, -, hc⟩ := List.mem_flatMap.mp hd
    exact not_markup_of_mem_entity hc
  ampersand _ _ h := exists_entity_of_escape_eq h

/-! ### Tidy text -/

open Layout (stripLineEnds shrinkBreaks tidy isPadding atLineEnd)

/-- Padding and line breaks have no meaning in HTML. -/
theorem not_layout_of_mem_specials : ∀ c ∈ specials, isPadding c = false ∧ c ≠ '\n' :=
  List.all_iff_forall_prop.mp (by decide)

/-- Entities hold no padding and no line breaks. -/
theorem not_layout_of_mem_entities {e : Text} (h : e ∈ entities) :
    ∀ c ∈ e, isPadding c = false ∧ c ≠ '\n' := by
  simp only [entities, List.mem_cons, List.not_mem_nil, or_false] at h
  rcases h with rfl | rfl | rfl | rfl | rfl <;>
    exact List.all_iff_forall_prop.mp (by decide)

/-- What is no padding stays when line ends are stripped. -/
theorem stripLineEnds_append {e : Text} (he : ∀ c ∈ e, isPadding c = false) (s : Text) :
    stripLineEnds (e ++ s) = e ++ stripLineEnds s := by
  induction e with
  | nil => rfl
  | cons c e ih =>
    rw [List.forall_mem_cons] at he
    simp [stripLineEnds, he.1, ih he.2]

/-- What holds no line break stays when line breaks are shrunk, and ends a run of them. -/
theorem shrinkBreaks_append {e : Text} (hsome : e ≠ []) (he : ∀ c ∈ e, c ≠ '\n') (breaks : Nat)
    (s : Text) : shrinkBreaks breaks (e ++ s) = e ++ shrinkBreaks 0 s := by
  induction e generalizing breaks with
  | nil => contradiction
  | cons c e ih =>
    rw [List.forall_mem_cons] at he
    have hc : shrinkBreaks breaks (c :: e ++ s) = c :: shrinkBreaks 0 (e ++ s) := by
      simp [shrinkBreaks, he.1]
    rw [hc]
    by_cases hrest : e = []
    · rw [hrest]; rfl
    · rw [ih hrest he.2, List.cons_append]

/-- An escaped text begins with the end of a line if the text does. -/
@[simp] theorem atLineEnd_escape (s : Text) : atLineEnd (escape s) = atLineEnd s := by
  cases s with
  | nil => rfl
  | cons c s =>
    rw [escape_cons]
    rcases entity_cases c with ⟨-, hentity⟩ | ⟨hc, hentity⟩
    · rw [hentity]
      rfl
    · have hbreak : (c == '\n') = false := by simpa using (not_layout_of_mem_specials c hc).2
      obtain ⟨rest, hshape, -⟩ := exists_cons_of_mem_entities hentity
      rw [hshape, atLineEnd, hbreak]
      rfl

/-- Line ends can be stripped before a text is escaped. -/
@[simp] theorem stripLineEnds_escape (s : Text) :
    stripLineEnds (escape s) = escape (stripLineEnds s) := by
  induction s with
  | nil => rfl
  | cons c s ih =>
    rcases entity_cases c with ⟨-, hentity⟩ | ⟨hc, hentity⟩
    · have hkept : escape (c :: stripLineEnds s) = c :: escape (stripLineEnds s) := by
        simp [hentity]
      rw [escape_cons, hentity, List.singleton_append, stripLineEnds, stripLineEnds, ih,
        atLineEnd_escape, ← hkept, apply_ite escape]
    · have hstripped : stripLineEnds (c :: s) = c :: stripLineEnds s := by
        simp [stripLineEnds, (not_layout_of_mem_specials c hc).1]
      have hnone d (hd : d ∈ entity c) := (not_layout_of_mem_entities hentity d hd).1
      simp [stripLineEnds_append hnone, ih, hstripped]

/-- Line breaks can be shrunk before a text is escaped. -/
@[simp] theorem shrinkBreaks_escape (breaks : Nat) (s : Text) :
    shrinkBreaks breaks (escape s) = escape (shrinkBreaks breaks s) := by
  induction s generalizing breaks with
  | nil => rfl
  | cons c s ih =>
    by_cases hbreak : c = '\n'
    · have hentity : entity c = [c] := by rw [hbreak]; decide
      have hkept (t : Text) : escape (c :: t) = c :: escape t := by
        simp [hentity]
      rw [hkept, shrinkBreaks, shrinkBreaks, ih, ih]
      simp only [hbreak, beq_self_eq_true, if_true, apply_ite escape]
      rw [← hbreak, hkept]
    · have hsome : entity c ≠ [] ∧ ∀ d ∈ entity c, d ≠ '\n' := by
        rcases entity_cases c with ⟨-, hentity⟩ | ⟨-, hentity⟩
        · rw [hentity]
          simpa using hbreak
        · obtain ⟨rest, hshape, -⟩ := exists_cons_of_mem_entities hentity
          exact ⟨by simp [hshape], fun d hd => (not_layout_of_mem_entities hentity d hd).2⟩
      have hshrunk : shrinkBreaks breaks (c :: s) = c :: shrinkBreaks 0 s := by
        simp [shrinkBreaks, hbreak]
      simp [shrinkBreaks_append hsome.1 hsome.2, ih, hshrunk]

/-- A text can be tidied before it is escaped. -/
@[simp] theorem tidy_escape (s : Text) : tidy (escape s) = escape (tidy s) := by
  simp [tidy]

end Stencil.Html
