import Stencil.Scaffold.PackageJson
import Stencil.Proofs.Text.Avoids
import Stencil.Proofs.Text.Trimming

/-!
# What package names look like

The allowed characters of a name other than hyphens are kept in their order, once the name is
stripped and written small, and single hyphens stand between some of them. A name that has this form
is its own package name. So a package name begins with the first character that is kept, and this
may be a point or an underscore, with which a package manager lets no name begin.
-/

namespace Stencil.PackageName

/-! ### The form of package names -/

/-- The form of package names: allowed characters, with single hyphens between others. -/
structure IsTidy (name : Text) : Prop where
  allowed : ∀ c ∈ name, isAllowed c
  single : ¬ ['-', '-'] <:+: name
  first : name.head? ≠ some '-'
  last : name.getLast? ≠ some '-'

/-- A name stripped and written small. -/
def lowered (name : Text) : Text := (Text.strip name).flatMap lower

/-- The allowed characters of a text other than hyphens. -/
def kept (s : Text) : Text := s.filter fun c => isAllowed c && c != '-'

/-- A text with hyphens for what is not allowed, none at its ends and never two in a row. -/
def hyphenate (s : Text) : Text := Text.trim (· == '-') (collapse (s.map replaceChar))

/-- A package name is made from the name written small. -/
theorem sanitize_eq (name : Text) : sanitize name = hyphenate (lowered name) := rfl

/-- What stands for a character is allowed. -/
@[simp] theorem isAllowed_replaceChar (c : Char) : isAllowed (replaceChar c) := by
  unfold replaceChar
  split
  · assumption
  · decide

/-- The characters that are kept of a text are those that are no hyphens where hyphens stand for
what is not allowed. -/
@[simp] theorem filter_map_replaceChar (s : Text) :
    (s.map replaceChar).filter (· != '-') = kept s := by
  induction s with
  | nil => rfl
  | cons c s ih =>
    rw [kept] at ih ⊢
    cases hc : isAllowed c with
    | true => simp [replaceChar, hc, ih, List.filter_cons]
    | false => simp [replaceChar, hc, ih]

/-! ### Hyphens in a row -/

variable {s : Text}

/-- Collapsing hyphens leaves out some of the characters. -/
theorem collapse_sublist (s : Text) : (collapse s).Sublist s := by
  fun_induction collapse s with
  | case1 => exact List.Sublist.refl _
  | case2 c => exact List.Sublist.refl _
  | case3 c d s h ih => exact ih.cons c
  | case4 c d s h ih => exact ih.cons_cons c

/-- Collapsing hyphens leaves out hyphens only. -/
@[simp] theorem filter_collapse (s : Text) :
    (collapse s).filter (· != '-') = s.filter (· != '-') := by
  fun_induction collapse s with
  | case1 => rfl
  | case2 c => rfl
  | case3 c d s h ih =>
    obtain ⟨rfl, rfl⟩ : c = '-' ∧ d = '-' := by simpa using h
    rw [ih]
    rfl
  | case4 c d s h ih => rw [List.filter_cons, List.filter_cons, ih]

/-- Collapsing hyphens keeps the first character. -/
@[simp] theorem head?_collapse (s : Text) : (collapse s).head? = s.head? := by
  fun_induction collapse s with
  | case1 => rfl
  | case2 c => rfl
  | case3 c d s h ih =>
    obtain ⟨rfl, rfl⟩ : c = '-' ∧ d = '-' := by simpa using h
    exact ih
  | case4 c d s h ih => rfl

/-- No two hyphens in a row are left. -/
theorem not_hyphens_infix_collapse (s : Text) : ¬ ['-', '-'] <:+: collapse s := by
  fun_induction collapse s with
  | case1 => simp
  | case2 c => exact fun h => absurd h.length_le (by simp)
  | case3 c d s h ih => exact ih
  | case4 c d s h ih =>
    rw [List.infix_cons_iff, not_or]
    refine ⟨fun hprefix => ?_, ih⟩
    obtain ⟨rfl, hrest⟩ := List.cons_prefix_cons.mp hprefix
    -- The rest begins as it did before, so the text has two hyphens here.
    have hhead := head?_collapse (d :: s)
    obtain ⟨more, hmore⟩ := hrest
    rw [← hmore] at hhead
    exact h (by simpa using hhead.symm)

/-- A text without two hyphens in a row stays as it is. -/
theorem collapse_eq_self (h : ¬ ['-', '-'] <:+: s) : collapse s = s := by
  fun_induction collapse s with
  | case1 => rfl
  | case2 c => rfl
  | case3 c d s hboth ih =>
    obtain ⟨rfl, rfl⟩ : c = '-' ∧ d = '-' := by simpa using hboth
    exact absurd (List.prefix_append ['-', '-'] s).isInfix h
  | case4 c d s hboth ih =>
    rw [ih fun hpair => h (hpair.trans (List.suffix_cons c _).isInfix)]

/-! ### Normal form -/

/-- Hyphenating keeps the allowed characters other than hyphens. -/
@[simp] theorem filter_hyphenate (s : Text) : (hyphenate s).filter (· != '-') = kept s := by
  rw [← filter_map_replaceChar, ← filter_collapse (s.map replaceChar)]
  exact Text.filter_trim (· == '-') _

/-- Hyphenating makes a text tidy. -/
theorem isTidy_hyphenate (s : Text) : IsTidy (hyphenate s) where
  allowed c hc := by
    have hcollapsed := (Text.isInfix_trim _ _).subset hc
    obtain ⟨d, -, rfl⟩ := List.mem_map.mp ((collapse_sublist _).subset hcollapsed)
    exact isAllowed_replaceChar d
  single h := not_hyphens_infix_collapse _ (h.trans (Text.isInfix_trim _ _))
  first h := absurd (Text.not_head_trim h) (by decide)
  last h := absurd (Text.not_getLast_trim h) (by decide)

/-- A tidy text stays as it is. -/
theorem IsTidy.hyphenate_eq (h : IsTidy s) : hyphenate s = s := by
  have hreplaced : s.map replaceChar = s := by
    conv_rhs => rw [← List.map_id s]
    exact List.map_congr_left fun c hc => if_pos (h.allowed c hc)
  rw [hyphenate, hreplaced, collapse_eq_self h.single]
  refine Text.trim_eq_self (fun c hc => ?_) fun c hc => ?_
  · exact beq_false_of_ne fun heq => h.first (heq ▸ hc)
  · exact beq_false_of_ne fun heq => h.last (heq ▸ hc)

/-! ### Small letters -/

/-- What holds of all characters of ASCII holds of each of them. -/
theorem of_ascii {P : Char → Prop} (h : ∀ n < 128, P (Char.ofNat n)) (hc : c.toNat < 128) : P c :=
  Char.ofNat_toNat c ▸ h c.toNat hc

/-- Allowed characters are characters of ASCII. -/
theorem toNat_lt_of_isAllowed (h : isAllowed c) : c.toNat < 128 := by
  simp only [isAllowed, Bool.or_eq_true, Bool.and_eq_true, decide_eq_true_eq, beq_iff_eq] at h
  rcases h with (((h | h) | rfl) | rfl) | rfl
  · exact Nat.lt_of_le_of_lt h.2 (by decide)
  · exact Text.toNat_lt_of_isAlphanum (by simp [Char.isAlphanum, h])
  all_goals decide

/-- Allowed characters are not blank and are their own small form. -/
theorem lower_of_isAllowed (h : isAllowed c) : Text.isBlank c = false ∧ lower c = [c] :=
  of_ascii (P := fun c => isAllowed c → Text.isBlank c = false ∧ lower c = [c]) (by decide +kernel)
    (toNat_lt_of_isAllowed h) h

/-- Letters and digits of ASCII are not blank, and their small form is kept. -/
theorem kept_lower_of_isAlphanum (h : c.isAlphanum) :
    Text.isBlank c = false ∧ kept (lower c) ≠ [] :=
  of_ascii (P := fun c => c.isAlphanum → Text.isBlank c = false ∧ kept (lower c) ≠ [])
    (by decide +kernel) (Text.toNat_lt_of_isAlphanum h) h

/-- A tidy text is its own small form, without blanks at its ends. -/
theorem IsTidy.lowered_eq (h : IsTidy s) : lowered s = s := by
  have hstrip : Text.strip s = s :=
    Text.trim_eq_self_of_forall fun c hc => (lower_of_isAllowed (h.allowed c hc)).1
  rw [lowered, hstrip]
  conv_rhs => rw [← List.flatMap_singleton' s]
  exact List.flatMap_congr fun c hc => (lower_of_isAllowed (h.allowed c hc)).2

/-- **Package names are a normal form.** A package name is tidy, and a tidy text is its own package
name. The name keeps all allowed characters of the text written small, but for the hyphens. -/
theorem sanitize_normalForm (name : Text) :
    IsTidy (sanitize name) ∧ (∀ tidy, IsTidy tidy → sanitize tidy = tidy) ∧
      sanitize (sanitize name) = sanitize name ∧
      (sanitize name).filter (· != '-') = kept (lowered name) := by
  have hself (tidy : Text) (h : IsTidy tidy) : sanitize tidy = tidy := by
    rw [sanitize_eq, h.lowered_eq, h.hyphenate_eq]
  have htidy : IsTidy (sanitize name) := isTidy_hyphenate _
  exact ⟨htidy, hself, hself _ htidy, filter_hyphenate _⟩

/-! ### Names that are taken -/

/-- A name that a package manager takes: it has allowed characters and nothing else, and does not
begin with a point, an underscore or a hyphen. -/
structure IsValid (name : Text) : Prop where
  nonempty : name ≠ []
  allowed : ∀ c ∈ name, isAllowed c
  start : ∀ c, name.head? = some c → c ∉ ['.', '_', '-']

/-- A text with a letter or digit of ASCII has a character that is kept. -/
theorem exists_head?_kept {name : Text} (h : ∃ c ∈ name, c.isAlphanum) :
    ∃ first, (kept (lowered name)).head? = some first := by
  obtain ⟨c, hc, halphanum⟩ := h
  obtain ⟨hblank, hkept⟩ := kept_lower_of_isAlphanum halphanum
  obtain ⟨d, hd⟩ := List.exists_mem_of_ne_nil _ hkept
  obtain ⟨hlower, hallowed⟩ := List.mem_filter.mp hd
  have hlowered : d ∈ lowered name := List.mem_flatMap.mpr ⟨c, Text.mem_trim hc hblank, hlower⟩
  have hmem : d ∈ kept (lowered name) := List.mem_filter.mpr ⟨hlowered, hallowed⟩
  obtain ⟨first, rest, hcons⟩ := List.exists_cons_of_ne_nil (List.ne_nil_of_mem hmem)
  exact ⟨first, by rw [hcons, List.head?_cons]⟩

/-- A package name begins with the first character that is kept. -/
theorem head?_sanitize (name : Text) : (sanitize name).head? = (kept (lowered name)).head? := by
  have hkept : (sanitize name).filter (· != '-') = kept (lowered name) := filter_hyphenate _
  have hfirst : (sanitize name).head? ≠ some '-' := (isTidy_hyphenate _).first
  cases hname : sanitize name with
  | nil => rw [← hkept, hname, List.filter_nil]
  | cons c rest =>
    rw [hname, List.head?_cons, ne_eq, Option.some_inj] at hfirst
    rw [← hkept, hname, List.filter_cons_of_pos (by simpa using hfirst), List.head?_cons,
      List.head?_cons]

/-- Among the allowed characters, those with which no name may begin are those that are no letters
and digits. -/
theorem isAlphanum_iff (h : isAllowed c) : c ∉ ['.', '_', '-'] ↔ c.isAlphanum :=
  of_ascii (P := fun c => isAllowed c → (c ∉ ['.', '_', '-'] ↔ c.isAlphanum)) (by decide +kernel)
    (toNat_lt_of_isAllowed h) h

end Stencil.PackageName

namespace Stencil.PackageJson

open PackageName

/-- **The name in a package description.** If the name of a project has a letter or a digit of
ASCII, then the name in the description is not empty, has allowed characters and nothing else, and
begins with the first character that is kept of the project's name, never with a hyphen. It is valid
exactly if this character is a letter or a digit. -/
theorem isValid_name_iff (f : Features) (m : Metadata) (h : ∃ c ∈ m.projectName, c.isAlphanum) :
    ∃ name first, Mapping.get? (build f m) "name".toList = some (.text name) ∧
      (∀ c ∈ name, isAllowed c) ∧ name.head? = some first ∧ first ≠ '-' ∧
      (kept (lowered m.projectName)).head? = some first ∧
      (IsValid name ↔ first.isAlphanum) := by
  obtain ⟨first, hkept⟩ := exists_head?_kept h
  have hhead : (sanitize m.projectName).head? = some first :=
    (head?_sanitize m.projectName).trans hkept
  have htidy : IsTidy (sanitize m.projectName) := isTidy_hyphenate _
  have hmem : first ∈ sanitize m.projectName := List.mem_of_head? hhead
  refine ⟨_, first, rfl, htidy.allowed, hhead, fun heq => htidy.first (heq ▸ hhead), hkept, ?_⟩
  rw [← isAlphanum_iff (htidy.allowed first hmem)]
  constructor
  · exact fun hvalid => hvalid.start first hhead
  · refine fun hstart => ⟨List.ne_nil_of_mem hmem, htidy.allowed, fun c hc => ?_⟩
    obtain rfl := Option.some.inj (hhead.symm.trans hc)
    exact hstart

/-- The letters in a name may be such as are written small in ASCII only. -/
theorem isValid_name_of_kelvin_sign :
    let m : Metadata := { projectName := " (\u212ait) 2!".toList }
    (∃ c ∈ m.projectName, c.isAlphanum) ∧
      ∃ name, Mapping.get? (build {} m) "name".toList = some (.text name) ∧ IsValid name := by
  intro m
  have hsome : ∃ c ∈ m.projectName, c.isAlphanum := ⟨'t', by decide, by decide⟩
  obtain ⟨name, first, hname, -, -, -, hkept, hvalid⟩ := isValid_name_iff {} m hsome
  have hfirst : (kept (lowered m.projectName)).head? = some 'k' := by decide +kernel
  obtain rfl := Option.some.inj (hfirst.symm.trans hkept)
  exact ⟨hsome, name, hname, hvalid.mpr (by decide)⟩

/-- A point at the front of a name is kept, and no name may begin with it. -/
theorem exists_name_not_isValid :
    let m : Metadata := { projectName := ".a".toList }
    (∃ c ∈ m.projectName, c.isAlphanum) ∧
      ∃ name, Mapping.get? (build {} m) "name".toList = some (.text name) ∧ ¬ IsValid name := by
  intro m
  have hname : sanitize m.projectName = ".a".toList := by decide +kernel
  refine ⟨⟨'a', by decide, by decide⟩, _, rfl, fun hvalid => ?_⟩
  rw [hname] at hvalid
  exact hvalid.start '.' rfl (by decide)

end Stencil.PackageJson
