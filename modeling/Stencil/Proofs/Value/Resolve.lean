import Stencil.Value.Resolve
import Stencil.Proofs.Template.Nesting
import Stencil.Proofs.Text.Search
import Stencil.Proofs.Text.Trimming
import Stencil.Proofs.Value.Assignment
import Mathlib.Data.List.Basic

/-!
# Looking up what was assigned

An assignment goes into nested mappings key by key, and so does the look-up of most paths. Paths
with the sign `@` and paths behind the word for features are looked up as single keys instead; if
such a key has points in it then no assignment reaches it, and its value stays.
-/

namespace Stencil

/-! ### Paths as keys -/

namespace Text

/-- A text is cut at the first place where a character stands. -/
theorem cut?_append {c : Char} {s : Text} (h : c ∉ s) (r : Text) :
    cut? [c] (s ++ c :: r) = some (s, r) := by
  have hnone : ¬ [c] <:+: s ++ [c].dropLast := by simpa [List.singleton_infix_iff] using h
  simpa using cut?_of_not_infix (List.cons_ne_nil c []) hnone r

end Text

namespace Template

/-- No point stands in a word. -/
theorem IsWordText.not_mem_point {s : Text} (h : IsWordText s) : '.' ∉ s := fun hmem => by
  have hpoint := h.2 '.' hmem
  exact absurd hpoint (by decide)

/-- The names of a path are not empty. -/
theorem IsPath.ne_nil_of_mem_splitOn {path name : Text} (h : IsPath path)
    (hname : name ∈ path.splitOn '.') : name ≠ [] := by
  have hplain {s : Text} (hs : IsPlainPath s) : ∀ name ∈ s.splitOn '.', name ≠ [] := by
    induction hs with
    | word hs =>
      rw [List.splitOn_eq_singleton hs.not_mem_point]
      simpa using hs.1
    | step hs _ ih =>
      rw [List.splitOn_append_cons_self_of_not_mem hs.not_mem_point]
      exact List.forall_mem_cons.mpr ⟨hs.1, ih⟩
  cases h with
  | plain hs => exact hplain hs name hname
  | @sign s hs =>
    cases hs with
    | word hs =>
      rw [List.splitOn_eq_singleton (by simpa using hs.not_mem_point)] at hname
      simp [List.mem_singleton.mp hname]
    | @step s t hs ht =>
      have hsign : '.' ∉ '@' :: s := by simpa using hs.not_mem_point
      rw [← List.cons_append, List.splitOn_append_cons_self_of_not_mem hsign] at hname
      rcases List.mem_cons.mp hname with rfl | hname
      · exact List.cons_ne_nil _ _
      · exact hplain ht name hname

end Template

namespace Assignment

open Template (IsPath)

/-- The keys of a path are its names. -/
theorem keysOf_path {path : Text} (h : IsPath path) : keysOf path = path.splitOn '.' := by
  have hblank : ∀ c ∈ path, Text.isBlank c = false := by
    intro c hc
    rcases h.char_of_mem hc with hword | rfl | rfl
    · by_contra hblank
      rw [Text.isWord_eq_false_of_isBlank (by simpa using hblank)] at hword
      contradiction
    · decide
    · decide
  rw [keysOf, Text.strip, Text.trim_eq_self_of_forall hblank, List.filter_eq_self]
  intro name hname
  simpa using h.ne_nil_of_mem_splitOn hname

/-- No equals sign stands in a path. -/
theorem equals_not_mem_path {path : Text} (h : IsPath path) : '=' ∉ path := by
  intro hmem
  rcases h.char_of_mem hmem with hword | heq | heq
  · exact absurd hword (by decide)
  · exact absurd heq (by decide)
  · exact absurd heq (by decide)

/-- The sides of an assignment to a path. -/
theorem sides?_path {path : Text} (h : IsPath path) (raw : Text) :
    sides? (path ++ '=' :: raw) = some (path, raw) :=
  Text.cut?_append (equals_not_mem_path h) raw

/-- An assignment with a key is carried out if its value can be read. -/
theorem apply_append {left right : Text} {value : Value} (hleft : '=' ∉ left)
    (hkeys : keysOf left ≠ []) (hread : readValue right = .ok value) (ctx : Context) :
    apply (left ++ '=' :: right) ctx = (.ok (), write ctx value (keysOf left)) := by
  rw [apply_of_keysOf_ne_nil (Text.cut?_append hleft right) hkeys, hread]
  dsimp only
  simp

/-- An assignment to a path is carried out if its value can be read. -/
theorem apply_path {path raw : Text} {value : Value} (hpath : IsPath path)
    (hread : readValue raw = .ok value) (ctx : Context) :
    apply (path ++ '=' :: raw) ctx = (.ok (), write ctx value (path.splitOn '.')) := by
  have hkeys : keysOf path ≠ [] := by
    rw [keysOf_path hpath]
    exact List.splitOn_ne_nil '.' path
  rw [apply_append (equals_not_mem_path hpath) hkeys hread, keysOf_path hpath]

/-! ### What is found after writing -/

variable (ctx : Mapping Value) (value : Value)

/-- Writing changes what is found at the first key only. -/
theorem get?_write_of_ne {key other : Text} (h : other ≠ key) (rest : List Text) :
    (write ctx value (key :: rest)).get? other = ctx.get? other := by
  cases rest with
  | nil => exact Mapping.get?_set_of_ne ctx value h
  | cons next rest => exact Mapping.get?_set_of_ne ctx _ h

/-- Writing behind a key changes the mapping at the key. -/
@[simp] theorem inner_write (key next : Text) (rest : List Text) :
    inner (write ctx value (key :: next :: rest)) key =
      write (inner ctx key) value (next :: rest) :=
  inner_of_get? (Mapping.get?_set_self ..)

/-- What is written at the end of keys is found by following them. -/
theorem walk_write {keys : List Text} (h : keys ≠ []) :
    Context.walk (write ctx value keys) keys = value := by
  fun_induction write ctx value keys with
  | case1 => contradiction
  | case2 ctx key => simp [Context.walk]
  | case3 ctx key next rest ih =>
    rw [Context.walk, Mapping.get?_set_self]
    · exact ih (List.cons_ne_nil _ _)
    · exact List.cons_ne_nil _ _

end Assignment

namespace Context

open Assignment (write)
open Template (IsPath IsPlainPath)

/-! ### Rules of looking up -/

/-- A path is looked up as a single key with points in it. -/
def IsDottedKey (path : Text) : Prop :=
  path.head? = some '@' ∧ '.' ∈ path ∨ ∃ key, path = featuresWord ++ '.' :: key ∧ '.' ∈ key

variable (ctx : Context)

/-- A path with the sign is looked up as it is. -/
theorem resolve_of_sign {path : Text} (h : path.head? = some '@') :
    ctx.resolve path = (ctx.get? path).getD .null := by
  rw [resolve, if_pos (by simp [h])]

/-- What stands behind the word for features is looked up as it is in the mapping there. -/
theorem resolve_features (key : Text) :
    ctx.resolve (featuresWord ++ '.' :: key) =
      ((Assignment.inner ctx featuresWord).get? key).getD .null := by
  have hdirect : ¬ ((featuresWord ++ '.' :: key == thisWord ||
      (featuresWord ++ '.' :: key).head? == some '@') = true) := by
    simp [featuresWord, thisWord]
  have hprefix := Text.isPrefixOf?_append (featuresWord ++ ['.']) key
  rw [List.append_assoc, List.singleton_append] at hprefix
  rw [resolve, if_neg hdirect, hprefix]
  dsimp only
  cases hget : ctx.get? featuresWord with
  | none => rw [Assignment.inner, hget]; rfl
  | some value => cases value <;> rw [Assignment.inner, hget] <;> rfl

/-- Other paths are followed name by name. -/
theorem resolve_of_names {path : Text} (hsign : path.head? ≠ some '@')
    (hfeatures : ∀ key, path ≠ featuresWord ++ '.' :: key) :
    ctx.resolve path = walk ctx (path.splitOn '.') := by
  by_cases hthis : path = thisWord
  · subst hthis
    rfl
  · have hprefix : (featuresWord ++ ['.']).isPrefixOf? path = none := by
      rw [Option.eq_none_iff_forall_ne_some]
      intro key hkey
      refine hfeatures key ?_
      rw [← List.append_eq_of_isPrefixOf?_eq_some hkey, List.append_assoc, List.singleton_append]
    rw [resolve, if_neg (by simp [hthis, hsign]), hprefix]

/-- The names of a path with points begin with one that is shorter than the path. -/
theorem exists_splitOn_of_mem {path : Text} (h : '.' ∈ path) :
    ∃ name next rest, path.splitOn '.' = name :: next :: rest ∧ path ≠ name := by
  obtain ⟨name, t, rfl, hname⟩ := List.eq_append_cons_of_mem h
  obtain ⟨next, rest, hrest⟩ := List.exists_cons_of_ne_nil (List.splitOn_ne_nil '.' t)
  refine ⟨name, next, rest, ?_, by simp⟩
  rw [List.splitOn_append_cons_self_of_not_mem hname, hrest]

/-- The names of a path behind the word for features. -/
theorem splitOn_features (key : Text) :
    (featuresWord ++ '.' :: key).splitOn '.' = featuresWord :: key.splitOn '.' :=
  List.splitOn_append_cons_self_of_not_mem (by decide) key

/-- What is written at the names of a path is found by looking the path up, unless it is a single
key with points in it. -/
theorem resolve_write (value : Value) {path : Text} (h : ¬ IsDottedKey path) :
    resolve (write ctx value (path.splitOn '.')) path = value := by
  obtain ⟨hdirect, hkey⟩ := not_or.mp h
  by_cases hsign : path.head? = some '@'
  · have hpoint : '.' ∉ path := fun hmem => hdirect ⟨hsign, hmem⟩
    simp [resolve_of_sign _ hsign, List.splitOn_eq_singleton hpoint, write]
  · by_cases hfeatures : ∃ key, path = featuresWord ++ '.' :: key
    · obtain ⟨key, rfl⟩ := hfeatures
      have hpoint : '.' ∉ key := fun hmem => hkey ⟨key, rfl, hmem⟩
      rw [resolve_features, splitOn_features, List.splitOn_eq_singleton hpoint,
        Assignment.inner_write, write, Mapping.get?_set_self, Option.getD_some]
    · rw [resolve_of_names _ hsign (not_exists.mp hfeatures)]
      exact Assignment.walk_write ctx value (List.splitOn_ne_nil '.' path)

/-- What is found by looking up a single key with points in it is not changed by writing at the
names of the path. -/
theorem resolve_write_of_isDottedKey (value : Value) {path : Text} (h : IsDottedKey path) :
    resolve (write ctx value (path.splitOn '.')) path = ctx.resolve path := by
  rcases h with ⟨hsign, hpoint⟩ | ⟨key, rfl, hpoint⟩
  · obtain ⟨name, next, rest, hnames, hne⟩ := exists_splitOn_of_mem hpoint
    rw [resolve_of_sign _ hsign, resolve_of_sign _ hsign, hnames,
      Assignment.get?_write_of_ne ctx value hne]
  · obtain ⟨name, next, rest, hnames, hne⟩ := exists_splitOn_of_mem hpoint
    simp [resolve_features, splitOn_features, hnames, Assignment.get?_write_of_ne _ value hne]

/-- **What is assigned is looked up.** After an assignment to a path was carried out, looking the
path up gives the value of its right side, unless the path is looked up as a single key with points
in it; then it gives what it gave before. -/
theorem resolve_of_apply {path raw : Text} {ctx after : Context} (hpath : IsPath path)
    (h : Assignment.apply (path ++ '=' :: raw) ctx = (.ok (), after)) :
    ∃ value, Assignment.readValue raw = .ok value ∧
      (¬ IsDottedKey path → after.resolve path = value) ∧
      (IsDottedKey path → after.resolve path = ctx.resolve path) := by
  obtain ⟨left, right, value, hsides, -, hread, rfl⟩ := Assignment.exists_write_of_apply h
  rw [Assignment.sides?_path hpath] at hsides
  obtain ⟨rfl, rfl⟩ := Prod.mk.inj (Option.some.inj hsides)
  rw [Assignment.keysOf_path hpath]
  exact ⟨value, hread, resolve_write ctx value, resolve_write_of_isDottedKey ctx value⟩

/-- A single digit is read as an integer. -/
theorem readValue_one : Assignment.readValue ['1'] = .ok (.int 1) := by
  have hdigits : ∀ d ∈ ['1'], d.isDigit := List.all_eq_true.mp (by decide)
  have hread := Json.read_of_digits hdigits (by decide)
  rw [if_neg (by decide)] at hread
  rw [Assignment.readValue, hread]
  rfl

/-- A path of two names. -/
theorem isPlainPath_two_names : IsPlainPath ['a', '.', 'b'] :=
  .step (s := ['a']) (t := ['b']) (.of_all (by decide) (by decide))
    (.word (.of_all (by decide) (by decide)))

/-- A number is assigned through a text, in whose place a mapping comes. -/
theorem resolve_of_apply_through_text :
    let ctx : Context := [(['a'], .text ['x']), (['b'], .bool true)]
    ∃ after, Assignment.apply ['a', '.', 'b', '=', '1'] ctx = (.ok (), after) ∧
      after.resolve ['a', '.', 'b'] = .int 1 := by
  intro ctx
  have hpath : IsPath ['a', '.', 'b'] := .plain isPlainPath_two_names
  have happly := Assignment.apply_path hpath readValue_one ctx
  obtain ⟨value, hread, hvalue, -⟩ := resolve_of_apply hpath happly
  have hdotted : ¬ IsDottedKey ['a', '.', 'b'] := by
    rintro (⟨hsign, -⟩ | ⟨key, hkey, -⟩)
    · exact absurd hsign (by decide)
    · exact absurd hkey (by simp [featuresWord])
  refine ⟨_, happly, ?_⟩
  rw [hvalue hdotted]
  exact (Except.ok.inj (readValue_one.symm.trans hread)).symm

/-- What is assigned behind a feature is not found there. -/
theorem exists_resolve_ne_of_apply :
    ∃ path after, IsPath path ∧ Assignment.apply (path ++ ['=', '1']) [] = (.ok (), after) ∧
      Assignment.readValue ['1'] = .ok (.int 1) ∧ after.resolve path ≠ .int 1 := by
  have hpath : IsPath (featuresWord ++ ['.', 'a', '.', 'b']) :=
    .plain (.step (.of_all (by decide) (by decide)) isPlainPath_two_names)
  have hdotted : IsDottedKey (featuresWord ++ ['.', 'a', '.', 'b']) := .inr ⟨_, rfl, by decide⟩
  refine ⟨_, _, hpath, Assignment.apply_path hpath readValue_one [], readValue_one, ?_⟩
  rw [resolve_write_of_isDottedKey [] (.int 1) hdotted]
  exact Value.noConfusion

end Context

end Stencil
