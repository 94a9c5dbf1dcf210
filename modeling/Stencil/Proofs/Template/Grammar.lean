import Stencil.Template.Spelling
import Stencil.Proofs.Text.Avoids
import Stencil.Proofs.Text.Search
import Mathlib.Data.List.TakeWhile

/-!
# The grammar of tags

Paths and names of partials are described by what they consist of, and tags by their spellings. The
readers of tags accept exactly this grammar: what a reader returns is derivable, and every spelling
of a tag is read back whatever stands behind it.
-/

namespace Stencil.Template

/-! ### Paths and names -/

/-- A text of word characters, at least one. -/
def IsWordText (s : Text) : Prop := s ≠ [] ∧ ∀ c ∈ s, Text.isWord c

/-- Words with single points between them. -/
inductive IsPlainPath : Text → Prop
  | word {s : Text} (h : IsWordText s) : IsPlainPath s
  | step {s t : Text} (hs : IsWordText s) (ht : IsPlainPath t) : IsPlainPath (s ++ '.' :: t)

/-- A path of the template language: words with single points between them, which may have the sign
`@` before them. -/
inductive IsPath : Text → Prop
  | plain {s : Text} (h : IsPlainPath s) : IsPath s
  | sign {s : Text} (h : IsPlainPath s) : IsPath ('@' :: s)

/-- The name of a partial: word characters, points, slashes and hyphens, at least one. -/
def IsPartialName (s : Text) : Prop := s ≠ [] ∧ ∀ c ∈ s, isNameChar c

/-- A text at which every path and every name ends. -/
def EndsArgument (s : Text) : Prop := ∀ c ∈ s.head?, isNameChar c = false

/-- A check of all characters tells that a text is one of word characters. -/
theorem IsWordText.of_all {s : Text} (hne : s ≠ []) (h : s.all Text.isWord) : IsWordText s :=
  ⟨hne, List.all_eq_true.mp h⟩

/-- A path without a sign is not empty. -/
theorem IsPlainPath.ne_nil {s : Text} (h : IsPlainPath s) : s ≠ [] := by
  cases h with
  | word h => exact h.1
  | step => simp

/-- No blank may stand in the name of a partial. -/
theorem isNameChar_eq_false_of_isBlank {c : Char} (h : Text.isBlank c) : isNameChar c = false := by
  have hsigns : ['.', '/', '-'].all fun d => !Text.isBlank d := by decide
  have hne : c ∉ ['.', '/', '-'] := Text.not_mem_of_all hsigns h
  simp only [List.mem_cons, List.not_mem_nil, or_false, not_or] at hne
  simp [isNameChar, Text.isWord_eq_false_of_isBlank h, hne]

/-- Where an argument ends, no further word character or point is read. -/
theorem continuePath_of_endsArgument {s : Text} (h : EndsArgument s) :
    continuePath s = ([], s) := by
  match s with
  | [] => rfl
  | [c] =>
    have hc := h c rfl
    simp only [isNameChar, Bool.or_eq_false_iff] at hc
    simp [continuePath, hc.1.1.1]
  | c :: d :: r =>
    have hc := h c rfl
    simp only [isNameChar, Bool.or_eq_false_iff] at hc
    simp [continuePath, hc.1.1.1, hc.1.1.2]

/-- Word characters at the front are taken into the path. -/
theorem continuePath_words {s : Text} (hs : ∀ c ∈ s, Text.isWord c) (r : Text) :
    continuePath (s ++ r) = (s ++ (continuePath r).1, (continuePath r).2) := by
  induction s with
  | nil => rfl
  | cons c s ih =>
    have hc := hs c List.mem_cons_self
    have ih := ih fun d hd => hs d (List.mem_cons_of_mem _ hd)
    rw [List.cons_append]
    cases htail : s ++ r with
    | nil =>
      rw [htail] at ih
      simp only [continuePath, hc, if_true, Prod.mk.injEq] at ih ⊢
      simp [← ih.1, ← ih.2]
    | cons d t =>
      rw [htail] at ih
      simp [continuePath, hc, ih]

/-- A point with a word character behind it is taken into the path. -/
theorem continuePath_point {c : Char} (hc : Text.isWord c) (r : Text) :
    continuePath ('.' :: c :: r) = ('.' :: c :: (continuePath r).1, (continuePath r).2) := by
  have hpoint : Text.isWord '.' = false := by decide
  simp [continuePath, hc, hpoint]

/-- A path without a sign is read up to where an argument ends. -/
theorem readPlainPath?_append {path : Text} (hpath : IsPlainPath path) {r : Text}
    (hr : EndsArgument r) : readPlainPath? (path ++ r) = some (path, r) := by
  induction hpath with
  | @word s h =>
    obtain ⟨hne, hword⟩ := h
    obtain ⟨c, s, rfl⟩ := List.exists_cons_of_ne_nil hne
    have hrest := continuePath_words (fun d hd => hword d (List.mem_cons_of_mem _ hd)) r
    rw [continuePath_of_endsArgument hr, List.append_nil] at hrest
    simp [readPlainPath?, hword c List.mem_cons_self, hrest]
  | @step s t hs ht ih =>
    obtain ⟨hne, hword⟩ := hs
    obtain ⟨c, s, rfl⟩ := List.exists_cons_of_ne_nil hne
    cases t with
    | nil => exact absurd rfl ht.ne_nil
    | cons d t =>
      rw [List.cons_append, readPlainPath?] at ih
      split at ih
      · next hd =>
        have hrest := continuePath_words (fun e he => hword e (List.mem_cons_of_mem _ he))
          ('.' :: d :: (t ++ r))
        simp only [Option.some.injEq, Prod.mk.injEq, List.cons.injEq] at ih
        rw [continuePath_point hd, ih.1.2, ih.2] at hrest
        simp [readPlainPath?, hword c List.mem_cons_self, hrest]
      · simp at ih

/-- A path is read up to where an argument ends. -/
theorem readPath?_append {path : Text} (hpath : IsPath path) {r : Text} (hr : EndsArgument r) :
    readPath? (path ++ r) = some (path, r) := by
  cases hpath with
  | plain h =>
    have hread := readPlainPath?_append h hr
    unfold readPath?
    split
    · next t ht =>
      have hsign : Text.isWord '@' = false := by decide
      simp [ht, readPlainPath?, hsign] at hread
    · exact hread
  | sign h => simp [readPath?, readPlainPath?_append h hr]

/-- The name of a partial is read up to where an argument ends. -/
theorem readName?_append {name : Text} (hname : IsPartialName name) {r : Text}
    (hr : EndsArgument r) : readName? (name ++ r) = some (name, r) := by
  obtain ⟨hne, hchars⟩ := hname
  have hstop : r.takeWhile isNameChar = [] ∧ r.dropWhile isNameChar = r := by
    cases r with
    | nil => exact ⟨rfl, rfl⟩
    | cons c r =>
      have hc := hr c rfl
      simp [hc]
  have htake : (name ++ r).takeWhile isNameChar = name := by
    rw [List.takeWhile_append_of_pos hchars, hstop.1, List.append_nil]
  have hdrop : (name ++ r).dropWhile isNameChar = r := by
    rw [List.dropWhile_append_of_pos hchars, hstop.2]
  simp [readName?, htake, hdrop, hne]

/-- What continues a path gives a path behind every word. -/
theorem isPlainPath_append_continuePath (r : Text) {s : Text} (hs : IsWordText s) :
    IsPlainPath (s ++ (continuePath r).1) := by
  have hsnoc {s : Text} {c : Char} (hs : IsWordText s) (hc : Text.isWord c) :
      IsWordText (s ++ [c]) := by
    refine ⟨by simp, fun d hd => ?_⟩
    rcases List.mem_append.mp hd with hd | hd
    · exact hs.2 d hd
    · rwa [List.mem_singleton.mp hd]
  fun_induction continuePath r generalizing s with
  | case1 => simpa using IsPlainPath.word hs
  | case2 c hc => exact .word (hsnoc hs hc)
  | case3 c hc => simpa using IsPlainPath.word hs
  | case4 c d r hc path rest hpath ih =>
    rw [hpath] at ih
    simpa using ih (hsnoc hs hc)
  | case5 c d r hc hpoint path rest hpath ih =>
    rw [Bool.and_eq_true, beq_iff_eq] at hpoint
    obtain ⟨rfl, hd⟩ := hpoint
    rw [hpath] at ih
    exact .step hs (ih (s := [d]) ⟨by simp, by simpa using hd⟩)
  | case6 => simpa using IsPlainPath.word hs

/-- What is read as a path is a path. -/
theorem isPath_of_readPath? {s path rest : Text} (h : readPath? s = some (path, rest)) :
    IsPath path := by
  have hplain {s path rest : Text} (h : readPlainPath? s = some (path, rest)) :
      IsPlainPath path := by
    unfold readPlainPath? at h
    split at h
    · simp at h
    · next c r =>
      split at h
      · next hc =>
        simp only [Option.some.injEq, Prod.mk.injEq] at h
        rw [← h.1]
        exact isPlainPath_append_continuePath r (s := [c]) ⟨by simp, by simpa using hc⟩
      · simp at h
  unfold readPath? at h
  split at h
  · simp only [Option.map_eq_some_iff, Prod.exists, Prod.mk.injEq] at h
    obtain ⟨path', rest', h, rfl, rfl⟩ := h
    exact .sign (hplain h)
  · exact .plain (hplain h)

/-- What is read as the name of a partial is one. -/
theorem isPartialName_of_readName? {s name rest : Text} (h : readName? s = some (name, rest)) :
    IsPartialName name := by
  unfold readName? at h
  split at h
  · simp at h
  · next hne =>
    simp only [Option.some.injEq, Prod.mk.injEq] at h
    rw [← h.1]
    exact ⟨by simpa using hne, fun c hc => List.mem_takeWhile_imp hc⟩

/-- A path is not empty, and its first character is no blank. -/
theorem IsPath.exists_cons {s : Text} (h : IsPath s) :
    ∃ c r, s = c :: r ∧ Text.isBlank c = false ∧ (c = '@' ∨ Text.isWord c) := by
  have hword {c : Char} (hc : Text.isWord c) : Text.isBlank c = false := by
    by_contra hblank
    rw [Text.isWord_eq_false_of_isBlank (by simpa using hblank)] at hc
    contradiction
  have hfirst {s : Text} (h : IsWordText s) : ∃ c r, s = c :: r ∧ Text.isWord c := by
    obtain ⟨c, r, rfl⟩ := List.exists_cons_of_ne_nil h.1
    exact ⟨c, r, rfl, h.2 c List.mem_cons_self⟩
  cases h with
  | sign h => exact ⟨'@', _, rfl, by decide, Or.inl rfl⟩
  | plain h =>
    cases h with
    | word h =>
      obtain ⟨c, r, rfl, hc⟩ := hfirst h
      exact ⟨c, r, rfl, hword hc, Or.inr hc⟩
    | step h _ =>
      obtain ⟨c, r, rfl, hc⟩ := hfirst h
      exact ⟨c, _, rfl, hword hc, Or.inr hc⟩

/-- The name of a partial is not empty, and its first character is no blank. -/
theorem IsPartialName.exists_cons {s : Text} (h : IsPartialName s) :
    ∃ c r, s = c :: r ∧ Text.isBlank c = false := by
  obtain ⟨c, r, rfl⟩ := List.exists_cons_of_ne_nil h.1
  refine ⟨c, r, rfl, ?_⟩
  by_contra hblank
  have hc := h.2 c List.mem_cons_self
  rw [isNameChar_eq_false_of_isBlank (by simpa using hblank)] at hc
  contradiction

/-! ### Tags -/

/-- Skipping blanks stops at the first character that is none. -/
theorem skipBlanks_append {blanks : Text} (hblanks : Blanks blanks) {c : Char}
    (hc : Text.isBlank c = false) (r : Text) : Text.skipBlanks (blanks ++ c :: r) = c :: r := by
  rw [Text.skipBlanks, List.dropWhile_append_of_pos hblanks]
  simp [hc]

/-- Every text begins with the blanks that are skipped. -/
theorem exists_blanks (s : Text) : ∃ blanks, Blanks blanks ∧ s = blanks ++ Text.skipBlanks s :=
  ⟨s.takeWhile Text.isBlank, fun _ hc => List.mem_takeWhile_imp hc,
    List.takeWhile_append_dropWhile.symm⟩

/-- Behind an argument and its blanks stands a brace, so the argument ends there. -/
theorem endsArgument_blanks {blanks : Text} (hblanks : Blanks blanks) (r : Text) :
    EndsArgument (blanks ++ '\x7d' :: r) := by
  intro c hc
  cases blanks with
  | nil =>
    rw [← Option.some.inj hc]
    decide
  | cons d blanks =>
    rw [← Option.some.inj hc]
    exact isNameChar_eq_false_of_isBlank (hblanks d List.mem_cons_self)

/-- A tag is read back in front of every text, if its argument is read up to where arguments end
and does not begin with a blank. -/
theorem readBetween?_append {opening argument closing tag : Text}
    {read : Text → Option (Text × Text)} (h : SpellsTag opening argument ('\x7d' :: closing) tag)
    (hfirst : ∃ c r, argument = c :: r ∧ Text.isBlank c = false)
    (hread : ∀ {r}, EndsArgument r → read (argument ++ r) = some (argument, r)) (rest : Text) :
    readBetween? opening ('\x7d' :: closing) read (tag ++ rest) = some (argument, rest) := by
  obtain @⟨before, after, hbefore, hafter⟩ := h
  obtain ⟨c, r, hargument, hc⟩ := hfirst
  have hopen : opening.isPrefixOf? (opening ++ before ++ argument ++ after ++
      '\x7d' :: closing ++ rest) =
      some (before ++ argument ++ after ++ '\x7d' :: closing ++ rest) := by
    simpa only [List.append_assoc] using Text.isPrefixOf?_append opening _
  have hskip : Text.skipBlanks (before ++ argument ++ after ++ '\x7d' :: closing ++ rest) =
      argument ++ (after ++ '\x7d' :: (closing ++ rest)) := by
    simpa [hargument] using skipBlanks_append hbefore hc _
  have hclose : Text.skipBlanks (after ++ '\x7d' :: (closing ++ rest)) =
      '\x7d' :: (closing ++ rest) := skipBlanks_append hafter (by decide) _
  have hrest : List.isPrefixOf? ('\x7d' :: closing) ('\x7d' :: (closing ++ rest)) = some rest :=
    Text.isPrefixOf?_append ('\x7d' :: closing) rest
  simp only [readBetween?, hopen, Option.bind_eq_bind, Option.bind_some, hskip,
    hread (endsArgument_blanks hafter _), hclose, hrest]

/-- The argument in a tag is what `read` reads at some place of the text. -/
theorem argument_of_readBetween? {opening closing s argument rest : Text}
    {read : Text → Option (Text × Text)}
    (h : readBetween? opening closing read s = some (argument, rest)) :
    ∃ inside after, read inside = some (argument, after) := by
  simp only [readBetween?, Option.bind_eq_bind, Option.bind_eq_some_iff, Prod.exists,
    Option.some.injEq, Prod.mk.injEq] at h
  obtain ⟨inside, -, argument', after, hargument, -, -, rfl, -⟩ := h
  exact ⟨_, after, hargument⟩

/-- A tag begins with its opening. -/
theorem prefix_of_readBetween? {opening closing s argument rest : Text}
    {read : Text → Option (Text × Text)}
    (h : readBetween? opening closing read s = some (argument, rest)) : opening <+: s := by
  simp only [readBetween?, Option.bind_eq_bind, Option.bind_eq_some_iff] at h
  obtain ⟨inside, hopen, -⟩ := h
  exact ⟨inside, List.append_eq_of_isPrefixOf?_eq_some hopen⟩

/-- Where the opening of a tag does not stand, the tag is not read. -/
theorem readBetween?_eq_none {opening closing s : Text} {read : Text → Option (Text × Text)}
    (h : ¬ opening <+: s) : readBetween? opening closing read s = none := by
  rw [Option.eq_none_iff_forall_ne_some]
  intro ⟨argument, rest⟩ hread
  exact h (prefix_of_readBetween? hread)

/-- What a reader of tags reads is spelled at the front of the text. -/
theorem spellsTag_of_readBetween? {opening closing s argument rest : Text}
    {read : Text → Option (Text × Text)}
    (hread : ∀ {s argument rest}, read s = some (argument, rest) → s = argument ++ rest)
    (h : readBetween? opening closing read s = some (argument, rest)) :
    ∃ tag, SpellsTag opening argument closing tag ∧ s = tag ++ rest := by
  simp only [readBetween?, Option.bind_eq_bind, Option.bind_eq_some_iff, Prod.exists,
    Option.some.injEq, Prod.mk.injEq] at h
  obtain ⟨inside, hopen, argument', after, hargument, rest', hclose, rfl, rfl⟩ := h
  obtain ⟨before, hbefore, hinside⟩ := exists_blanks inside
  obtain ⟨behind, hbehind, hafter⟩ := exists_blanks after
  refine ⟨_, .intro hbefore hbehind, ?_⟩
  calc s = opening ++ inside := (List.append_eq_of_isPrefixOf?_eq_some hopen).symm
    _ = opening ++ (before ++ (argument' ++ after)) := by rw [← hread hargument, ← hinside]
    _ = opening ++ (before ++ (argument' ++ (behind ++ (closing ++ rest')))) := by
      rw [List.append_eq_of_isPrefixOf?_eq_some hclose, ← hafter]
    _ = opening ++ before ++ argument' ++ behind ++ closing ++ rest' := by
      simp only [List.append_assoc]

/-- An opening tag is read back in front of every text. -/
theorem readOpener?_append {kind : BlockKind} {path opener : Text}
    (h : SpellsOpener kind path opener) (hpath : IsPath path) (rest : Text) :
    readOpener? kind (opener ++ rest) = some (path, rest) := by
  obtain @⟨blank, tag, hblank, htag⟩ := h
  obtain ⟨c, r, hfirst, hc, -⟩ := hpath.exists_cons
  have hwide : SpellsTag [] path closeBraces (blank :: tag) := by
    obtain @⟨before, after, hbefore, hafter⟩ := htag
    have hmore : Blanks (blank :: before) := by
      intro d hd
      rcases List.mem_cons.mp hd with rfl | hd
      · exact hblank
      · exact hbefore d hd
    exact .intro hmore hafter
  have hread : readBetween? [] closeBraces readPath? (blank :: tag ++ rest) = some (path, rest) :=
    readBetween?_append hwide ⟨c, r, hfirst, hc⟩ (readPath?_append hpath) rest
  have hmark := Text.isPrefixOf?_append kind.openMark (blank :: tag ++ rest)
  rw [← List.append_assoc] at hmark
  simp only [readOpener?, hmark, Option.bind_eq_bind, Option.bind_some]
  simpa [hblank] using hread

/-- What is read as an opening tag is spelled at the front of the text. -/
theorem spellsOpener_of_readOpener? {kind : BlockKind} {s path rest : Text}
    (h : readOpener? kind s = some (path, rest)) :
    IsPath path ∧ ∃ opener, SpellsOpener kind path opener ∧ s = opener ++ rest := by
  simp only [readOpener?, Option.bind_eq_bind, Option.bind_eq_some_iff] at h
  obtain ⟨inside, hopen, h⟩ := h
  split at h
  · next hblank =>
    obtain ⟨_, _, hread⟩ := argument_of_readBetween? h
    have hpath := isPath_of_readPath? hread
    obtain ⟨tag, htag, rfl⟩ := spellsTag_of_readBetween? eq_of_readPath? h
    obtain @⟨before, after, hbefore, hafter⟩ := htag
    refine ⟨hpath, ?_⟩
    cases before with
    | nil =>
      obtain ⟨c, r, rfl, hc, -⟩ := hpath.exists_cons
      simp [hc] at hblank
    | cons blank before =>
      have hfewer : Blanks before := fun c hc => hbefore c (List.mem_cons_of_mem _ hc)
      have hopener : SpellsOpener kind path
          (kind.openMark ++ blank :: ([] ++ before ++ path ++ after ++ closeBraces)) :=
        .intro (hbefore blank List.mem_cons_self) (.intro hfewer hafter)
      refine ⟨_, hopener, ?_⟩
      rw [← List.append_eq_of_isPrefixOf?_eq_some hopen]
      simp
  · simp at h

/-- A tag without a body, complete and with a valid argument. -/
inductive SpellsInline : Node → Text → Prop
  | escaped {path s : Text} (hpath : IsPath path) (h : SpellsTag openBraces path closeBraces s) :
    SpellsInline (.escaped path) s
  | raw {path s : Text} (hpath : IsPath path)
    (h : SpellsTag ('\x7b' :: openBraces) path ('\x7d' :: closeBraces) s) :
    SpellsInline (.raw path) s
  | partialRef {name s : Text} (hname : IsPartialName name)
    (h : SpellsTag (openBraces ++ ['>']) name closeBraces s) : SpellsInline (.partialRef name) s

/-- A tag is not empty. -/
theorem SpellsInline.ne_nil {node : Node} {s : Text} (h : SpellsInline node s) : s ≠ [] := by
  have htag {opening argument closing : Text}
      (htag : SpellsTag ('\x7b' :: opening) argument closing s) : s ≠ [] := by
    obtain ⟨hbefore, hafter⟩ := htag
    simp
  cases h with
  | escaped _ h => exact htag h
  | raw _ h => exact htag h
  | partialRef _ h => exact htag h

/-- What is read as a tag without a body is spelled at the front of the text. -/
theorem spellsInline_of_readInline? {s rest : Text} {node : Node}
    (h : readInline? s = some (node, rest)) :
    ∃ tag, SpellsInline node tag ∧ s = tag ++ rest := by
  unfold readInline? at h
  split at h
  · next name rest' htag =>
    cases h
    obtain ⟨_, _, hread⟩ := argument_of_readBetween? htag
    obtain ⟨tag, hspells, hs⟩ := spellsTag_of_readBetween? eq_of_readName? htag
    exact ⟨tag, .partialRef (isPartialName_of_readName? hread) hspells, hs⟩
  · split at h
    · next path rest' htag =>
      cases h
      obtain ⟨_, _, hread⟩ := argument_of_readBetween? htag
      obtain ⟨tag, hspells, hs⟩ := spellsTag_of_readBetween? eq_of_readPath? htag
      exact ⟨tag, .raw (isPath_of_readPath? hread) hspells, hs⟩
    · simp only [Option.map_eq_some_iff, Prod.exists, Prod.mk.injEq] at h
      obtain ⟨path, rest', htag, rfl, rfl⟩ := h
      obtain ⟨_, _, hread⟩ := argument_of_readBetween? htag
      obtain ⟨tag, hspells, hs⟩ := spellsTag_of_readBetween? eq_of_readPath? htag
      exact ⟨tag, .escaped (isPath_of_readPath? hread) hspells, hs⟩

end Stencil.Template
