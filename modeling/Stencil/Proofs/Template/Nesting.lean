import Stencil.Template.Block
import Stencil.Proofs.Template.WellFormed

/-!
# Scanning over tags and blocks

The scans for closing tags and for the tag between two bodies look at single marks only. This file
says which texts they pass over: texts in which no mark begins, and whole blocks with balanced
bodies, where the count of opening and closing tags comes back to where it was. Where a scan stops
depends only on the text up to there, so the blocks that are read are told by their own text.
-/

namespace Stencil.Template

/-- The two parts of a text with another text before the first part. -/
def prepend (s : Text) (parts : Text × Text) : Text × Text := (s ++ parts.1, parts.2)

/-- Prepending two texts is prepending them together. -/
@[simp] theorem map_prepend_prepend (s t : Text) (o : Option (Text × Text)) :
    (o.map (prepend t)).map (prepend s) = o.map (prepend (s ++ t)) := by
  cases o <;> simp [prepend]

/-- Prepending nothing changes nothing. -/
@[simp] theorem map_prepend_nil (o : Option (Text × Text)) : o.map (prepend []) = o := by
  cases o <;> rfl

/-! ### Marks -/

/-- Characters that follow two opening braces in all tags but those of values. -/
def signs : List Char := ['#', '/', '!', '>', '\x7b']

/-- No blank is a sign. -/
theorem not_mem_signs_of_isBlank {c : Char} (h : Text.isBlank c) : c ∉ signs := by
  have hsigns : signs.all fun d => !Text.isBlank d := by decide
  exact Text.not_mem_of_all hsigns h

/-- No word character is a sign. -/
theorem not_mem_signs_of_isWord {c : Char} (h : Text.isWord c) : c ∉ signs := by
  have hsigns : signs.all fun d => !Text.isWord d := by decide
  exact Text.not_mem_of_all hsigns h

/-- A path consists of word characters, points and the sign `@`. -/
theorem IsPath.char_of_mem {path : Text} (h : IsPath path) {c : Char} (hc : c ∈ path) :
    Text.isWord c ∨ c = '.' ∨ c = '@' := by
  have hplain {s : Text} (hs : IsPlainPath s) : ∀ c ∈ s, Text.isWord c ∨ c = '.' ∨ c = '@' := by
    induction hs with
    | word h => exact fun c hc => Or.inl (h.2 c hc)
    | step hs _ ih =>
      intro c hc
      rcases List.mem_append.mp hc with hc | hc
      · exact Or.inl (hs.2 c hc)
      · rcases List.mem_cons.mp hc with rfl | hc
        · exact Or.inr (Or.inl rfl)
        · exact ih c hc
  cases h with
  | plain h => exact hplain h c hc
  | sign h =>
    rcases List.mem_cons.mp hc with rfl | hc
    · exact Or.inr (Or.inr rfl)
    · exact hplain h c hc

/-- A path has no signs. -/
theorem IsPath.not_mem_signs {path : Text} (h : IsPath path) {c : Char} (hc : c ∈ path) :
    c ∉ signs := by
  rcases h.char_of_mem hc with hword | rfl | rfl
  · exact not_mem_signs_of_isWord hword
  · decide
  · decide

/-- Blanks have no opening braces. -/
theorem Blanks.not_mem_brace {s : Text} (h : Blanks s) : '\x7b' ∉ s := fun hmem => by
  have hbrace : Text.isBlank '\x7b' = false := by decide
  simpa [hbrace] using h _ hmem

/-- Behind the opening braces of a tag with a path stands no sign, and no opening brace stands in
the rest of the tag. -/
theorem SpellsTag.exists_inside {opening path closing tag : Text}
    (h : SpellsTag opening path closing tag) (hpath : IsPath path)
    (hclosing : '\x7b' ∉ closing) :
    ∃ c r, tag = opening ++ c :: r ∧ c ∉ signs ∧ '\x7b' ∉ c :: r := by
  obtain @⟨before, after, hbefore, hafter⟩ := h
  obtain ⟨d, t, hfirst, -⟩ := hpath.exists_cons
  have hbrace : '\x7b' ∉ before ++ path ++ after ++ closing := by
    have hpathBrace : '\x7b' ∉ path := fun hmem => hpath.not_mem_signs hmem (by decide)
    simp [hbefore.not_mem_brace, hafter.not_mem_brace, hpathBrace, hclosing]
  obtain ⟨c, r, hinside, hc⟩ : ∃ c r, before ++ path ++ after ++ closing = c :: r ∧ c ∉ signs := by
    cases before with
    | nil =>
      have hd : d ∈ path := by rw [hfirst]; exact List.mem_cons_self
      exact ⟨d, t ++ after ++ closing, by simp [hfirst], hpath.not_mem_signs hd⟩
    | cons b before =>
      exact ⟨b, _, rfl, not_mem_signs_of_isBlank (hbefore b List.mem_cons_self)⟩
  refine ⟨c, r, ?_, hc, hinside ▸ hbrace⟩
  rw [← hinside]
  simp only [List.append_assoc]

/-- Two braces and text without opening braces begin a mark at most at their front. -/
theorem avoids_braces (mark : Text) {r : Text} (hne : r ≠ []) (hbrace : '\x7b' ∉ r)
    (hfirst : ∀ after, ¬ mark <+: r ++ after) :
    Text.Avoids (openBraces ++ mark) (openBraces ++ r) := by
  refine ⟨fun after h => ?_, fun after h => ?_, Text.avoids_of_not_mem hbrace⟩
  · exact hfirst after ((List.prefix_append_right_inj openBraces).mp h)
  · obtain ⟨c, t, rfl⟩ := List.exists_cons_of_ne_nil hne
    have hsecond := (List.cons_prefix_cons.mp (List.cons_prefix_cons.mp h).2).1
    rw [hsecond] at hbrace
    exact hbrace List.mem_cons_self

/-- A mark of two braces and a sign is avoided by a tag with another character there. -/
theorem avoids_sign {sign c : Char} (mark : Text) {r : Text} (hc : c ≠ sign)
    (hbrace : '\x7b' ∉ c :: r) :
    Text.Avoids (openBraces ++ sign :: mark) (openBraces ++ c :: r) :=
  avoids_braces _ (by simp) hbrace fun _ h => hc (List.cons_prefix_cons.mp h).1.symm

/-- The opening tags of a kind begin with the mark of blocks. -/
theorem blockMark_prefix_openMark (kind : BlockKind) : blockMark <+: kind.openMark :=
  List.prefix_append ..

/-- The marks of the kinds differ, whatever follows them. -/
theorem BlockKind.eq_of_openMark_prefix {kind other : BlockKind} {r : Text}
    (h : kind.openMark <+: other.openMark ++ r) : kind = other := by
  rw [openMark, openMark, List.append_assoc, List.prefix_append_right_inj] at h
  cases kind <;> cases other <;> simp [word, List.cons_prefix_cons] at h ⊢

/-- The closing tags of the kinds differ, whatever follows them. -/
theorem BlockKind.eq_of_closeTag_prefix {kind other : BlockKind} {r : Text}
    (h : kind.closeTag <+: other.closeTag ++ r) : kind = other := by
  simp only [closeTag, List.append_assoc, List.prefix_append_right_inj] at h
  cases kind <;> cases other <;> simp [word, List.cons_prefix_cons] at h ⊢

/-! ### Tags without a body -/

/-- A tag that includes a partial has no opening braces behind its sign. -/
theorem SpellsTag.not_mem_name {name tag : Text}
    (h : SpellsTag (openBraces ++ ['>']) name closeBraces tag) (hname : IsPartialName name) :
    ∃ r, tag = openBraces ++ '>' :: r ∧ '\x7b' ∉ '>' :: r := by
  obtain @⟨before, after, hbefore, hafter⟩ := h
  have hnameBrace : '\x7b' ∉ name := fun hmem => by
    have hbrace : isNameChar '\x7b' = false := by decide
    simpa [hbrace] using hname.2 _ hmem
  refine ⟨before ++ name ++ after ++ closeBraces, ?_, ?_⟩
  · simp only [List.append_assoc, List.cons_append, List.nil_append]
  · simp [hbefore.not_mem_brace, hafter.not_mem_brace, hnameBrace, closeBraces]

/-- A tag without a body begins no block, no closing tag and no comment. -/
theorem SpellsInline.avoids {node : Node} {s mark : Text} {sign : Char} (h : SpellsInline node s)
    (hsign : sign ∈ ['#', '/', '!']) : Text.Avoids (openBraces ++ sign :: mark) s := by
  have hsigns : sign ∈ signs ∧ sign ≠ '\x7b' ∧ sign ≠ '>' := by
    simp only [List.mem_cons, List.not_mem_nil, or_false] at hsign
    rcases hsign with rfl | rfl | rfl <;> decide
  obtain ⟨hmem, hbrace, hname⟩ := hsigns
  cases h with
  | escaped hpath h =>
    obtain ⟨c, r, rfl, hc, hinside⟩ := h.exists_inside hpath (by decide)
    exact avoids_sign mark (fun heq => hc (heq ▸ hmem)) hinside
  | raw hpath h =>
    obtain ⟨c, r, rfl, hc, hinside⟩ := h.exists_inside hpath (by decide)
    refine ⟨fun after hbegin => ?_, avoids_sign mark (fun heq => hc (heq ▸ hmem)) hinside⟩
    have hthird := (List.prefix_append_right_inj openBraces).mp hbegin
    exact hbrace (List.cons_prefix_cons.mp hthird).1
  | partialRef hvalid h =>
    obtain ⟨r, rfl, hinside⟩ := h.not_mem_name hvalid
    exact avoids_sign mark hname.symm hinside

/-- The word of the tag between two bodies has the form of a path. -/
theorem isPath_elseWord : IsPath elseWord := .plain (.word (.of_all (by decide) (by decide)))

/-- Behind the two opening braces of a tag without a body stands no sign of a block. -/
theorem SpellsInline.exists_inside {node : Node} {tag : Text} (h : SpellsInline node tag) :
    ∃ c r, tag = openBraces ++ c :: r ∧ c ≠ '#' := by
  cases h with
  | escaped hpath h =>
    obtain ⟨c, r, rfl, hc, -⟩ := h.exists_inside hpath (by decide)
    refine ⟨c, r, rfl, ?_⟩
    rintro rfl
    exact hc (by decide)
  | raw hpath h =>
    obtain ⟨c, r, rfl, -, -⟩ := h.exists_inside hpath (by decide)
    exact ⟨'\x7b', c :: r, rfl, by decide⟩
  | partialRef hname h =>
    obtain ⟨r, rfl, -⟩ := h.not_mem_name hname
    exact ⟨'>', r, rfl, by decide⟩

/-- A tag of two braces is read back in front of every text. -/
theorem readEscapedTag?_append {path tag : Text} (h : SpellsTag openBraces path closeBraces tag)
    (hpath : IsPath path) (r : Text) : readEscapedTag? (tag ++ r) = some (path, r) := by
  obtain ⟨c, u, hfirst, hc, -⟩ := hpath.exists_cons
  exact readBetween?_append h ⟨c, u, hfirst, hc⟩ (readPath?_append hpath) r

/-- The tag between two bodies is a tag of two braces with its word as path. -/
theorem spellsTag_elseTag : SpellsTag openBraces elseWord closeBraces elseTag :=
  .intro blanks_nil blanks_nil

/-- A tag of two braces other than the tag between two bodies does not begin it. -/
theorem avoids_elseTag_of_ne {path s : Text} (h : SpellsTag openBraces path closeBraces s)
    (hpath : IsPath path) (hother : s ≠ elseTag) : Text.Avoids elseTag s := by
  have hfirst (after : Text) : ¬ elseTag <+: s ++ after := by
    rintro ⟨r, hr⟩
    have hread := readEscapedTag?_append h hpath after
    rw [← hr, readEscapedTag?_append spellsTag_elseTag isPath_elseWord] at hread
    obtain ⟨-, rfl⟩ := Prod.mk.inj (Option.some.inj hread)
    exact hother (List.append_cancel_right hr).symm
  obtain ⟨c, r, rfl, -, hbrace⟩ := h.exists_inside hpath (by decide)
  exact avoids_braces ['e', 'l', 's', 'e', '\x7d', '\x7d'] (by simp) hbrace
    fun after hbegin => hfirst after ((List.prefix_append_right_inj openBraces).mpr hbegin)

/-- A tag of two braces with a path other than the word of the tag between two bodies does not
begin that tag. -/
theorem avoids_elseTag_escaped {path s : Text} (h : SpellsTag openBraces path closeBraces s)
    (hpath : IsPath path) (hother : path ≠ elseWord) : Text.Avoids elseTag s := by
  refine avoids_elseTag_of_ne h hpath fun heq => hother ?_
  have hread := readEscapedTag?_append h hpath []
  rw [heq, readEscapedTag?_append spellsTag_elseTag isPath_elseWord] at hread
  exact (Prod.mk.inj (Option.some.inj hread)).1.symm

/-- A tag of three braces is a tag of two braces in a further pair of them. -/
theorem SpellsTag.exists_inner {path s : Text}
    (h : SpellsTag ('\x7b' :: openBraces) path ('\x7d' :: closeBraces) s) :
    ∃ inner, SpellsTag openBraces path closeBraces inner ∧ s = '\x7b' :: (inner ++ ['\x7d']) := by
  obtain @⟨before, after, hbefore, hafter⟩ := h
  exact ⟨_, .intro hbefore hafter, by simp [closeBraces]⟩

/-- The tag between two bodies does not begin in a further pair of braces around a tag of two braces
that does not begin it. -/
theorem avoids_elseTag_inner {path inner : Text} (h : SpellsTag openBraces path closeBraces inner)
    (hinner : Text.Avoids elseTag inner) :
    Text.Avoids elseTag ('\x7b' :: (inner ++ ['\x7d'])) := by
  have hbrace : Text.Avoids elseTag ['\x7d'] := Text.avoids_of_not_mem (by decide)
  refine ⟨fun after hbegin => ?_, hinner.append hbrace⟩
  obtain @⟨before, behind, -, -⟩ := h
  simp [elseTag, openBraces, List.cons_prefix_cons] at hbegin

/-- A tag of three braces with such a path does not begin the tag between two bodies either. -/
theorem avoids_elseTag_raw {path s : Text}
    (h : SpellsTag ('\x7b' :: openBraces) path ('\x7d' :: closeBraces) s) (hpath : IsPath path)
    (hother : path ≠ elseWord) : Text.Avoids elseTag s := by
  obtain ⟨inner, hinner, rfl⟩ := h.exists_inner
  exact avoids_elseTag_inner hinner (avoids_elseTag_escaped hinner hpath hother)

/-! ### Opening and closing tags -/

/-- An opening tag is the mark of its kind, a blank, and text; no braces open in it again. -/
theorem SpellsOpener.exists_inside {kind : BlockKind} {path opener : Text}
    (h : SpellsOpener kind path opener) (hpath : IsPath path) :
    ∃ inside, opener = kind.openMark ++ inside ∧ '\x7b' ∉ '#' :: (kind.word ++ inside) := by
  obtain @⟨blank, tag, hblank, htag⟩ := h
  obtain ⟨c, r, rfl, -, hbrace⟩ := htag.exists_inside hpath (by decide)
  refine ⟨_, rfl, ?_⟩
  have hword : '\x7b' ∉ '#' :: kind.word := by cases kind <;> decide
  have hne : '\x7b' ≠ blank := by
    rintro rfl
    exact absurd hblank (by decide)
  rw [← List.cons_append, List.mem_append, not_or]
  exact ⟨hword, by simpa [hne] using hbrace⟩

/-- An opening tag is not empty. -/
theorem SpellsOpener.ne_nil {kind : BlockKind} {path opener : Text}
    (h : SpellsOpener kind path opener) : opener ≠ [] := by
  cases h
  exact List.append_ne_nil_of_left_ne_nil kind.openMark_ne_nil _

/-- Two braces and no further one: two braces open at the front only. -/
theorem avoids_openBraces_tail {c : Char} {r : Text} (h : '\x7b' ∉ c :: r) :
    Text.Avoids openBraces ('\x7b' :: c :: r) := by
  refine ⟨fun after hbegin => h ?_, Text.avoids_of_not_mem h⟩
  have hsecond := (List.cons_prefix_cons.mp (List.cons_prefix_cons.mp hbegin).2).1
  rw [← hsecond]
  exact List.mem_cons_self

/-- Behind the first brace of an opening tag no two braces open. -/
theorem SpellsOpener.exists_tail {kind : BlockKind} {path opener : Text}
    (h : SpellsOpener kind path opener) (hpath : IsPath path) :
    ∃ tail, opener = '\x7b' :: tail ∧ Text.Avoids openBraces tail := by
  obtain ⟨inside, rfl, hbrace⟩ := h.exists_inside hpath
  exact ⟨_, rfl, avoids_openBraces_tail hbrace⟩

/-- An opening tag begins no mark with another sign. -/
theorem avoids_opener {kind : BlockKind} {path opener : Text} {sign : Char} (mark : Text)
    (h : SpellsOpener kind path opener) (hpath : IsPath path) (hother : sign ≠ '#') :
    Text.Avoids (openBraces ++ sign :: mark) opener := by
  obtain ⟨inside, rfl, hbrace⟩ := h.exists_inside hpath
  exact avoids_sign mark hother.symm hbrace

/-- An opening tag begins no opening tag of another kind. -/
theorem avoids_openMark_opener {kind other : BlockKind} {path opener : Text}
    (h : SpellsOpener kind path opener) (hpath : IsPath path) (hother : other ≠ kind) :
    Text.Avoids other.openMark opener := by
  obtain ⟨inside, rfl, hbrace⟩ := h.exists_inside hpath
  refine avoids_braces ('#' :: other.word) (by simp) hbrace fun after hbegin => hother ?_
  apply BlockKind.eq_of_openMark_prefix (r := inside ++ after)
  simpa [BlockKind.openMark, blockMark] using hbegin

/-- The word of a kind and two closing braces have no opening brace. -/
theorem not_mem_closeTag (kind : BlockKind) : '\x7b' ∉ '/' :: (kind.word ++ closeBraces) := by
  cases kind <;> decide

/-- A closing tag is two braces, the sign, the word and two braces. -/
theorem closeTag_eq (kind : BlockKind) :
    kind.closeTag = openBraces ++ '/' :: (kind.word ++ closeBraces) := by
  simp [BlockKind.closeTag]

/-- A closing tag begins no mark with another sign. -/
theorem avoids_closeTag {sign : Char} (mark : Text) (kind : BlockKind) (hother : sign ≠ '/') :
    Text.Avoids (openBraces ++ sign :: mark) kind.closeTag := by
  rw [closeTag_eq]
  exact avoids_sign mark hother.symm (not_mem_closeTag kind)

/-- A closing tag begins no closing tag of another kind. -/
theorem avoids_closeTag_closeTag {kind other : BlockKind} (hother : other ≠ kind) :
    Text.Avoids other.closeTag kind.closeTag := by
  rw [closeTag_eq, closeTag_eq]
  refine avoids_braces _ (by simp) (not_mem_closeTag kind) fun after hbegin => hother ?_
  apply BlockKind.eq_of_closeTag_prefix (r := after)
  simpa [closeTag_eq, openBraces] using hbegin

/-- The tag between two bodies begins no mark with a sign. -/
theorem avoids_elseTag {sign : Char} (mark : Text) (hsign : sign ∈ signs) :
    Text.Avoids (openBraces ++ sign :: mark) elseTag := by
  have hother : 'e' ≠ sign := by
    rintro rfl
    exact absurd hsign (by decide)
  exact avoids_sign mark hother (by decide)

/-! ### The scan for the closing tag -/

/-- The scan passes over a character at which neither tag begins. -/
theorem splitClose?_plain {opening closing r : Text} {c : Char} (hopening : ¬ opening <+: c :: r)
    (hclosing : ¬ closing <+: c :: r) (depth : Nat) :
    splitClose? opening closing depth (c :: r) =
      (splitClose? opening closing depth r).map (prepend [c]) := by
  rw [← List.isPrefixOf_iff_prefix] at hopening hclosing
  rw [splitClose?.eq_def]
  simp only [hclosing, hopening]
  rfl

/-- The scan passes over a text in which neither tag begins. -/
theorem splitClose?_append {opening closing s : Text} (hopening : Text.Avoids opening s)
    (hclosing : Text.Avoids closing s) (depth : Nat) (r : Text) :
    splitClose? opening closing depth (s ++ r) =
      (splitClose? opening closing depth r).map (prepend s) := by
  induction s with
  | nil => simp
  | cons c s ih =>
    rw [List.cons_append, splitClose?_plain (hopening.1 r) (hclosing.1 r),
      ih hopening.2 hclosing.2, map_prepend_prepend]
    rfl

/-- The scan goes one level down at an opening tag. -/
@[simp] theorem splitClose?_openMark (kind : BlockKind) (depth : Nat) (r : Text) :
    splitClose? kind.openMark kind.closeTag depth (kind.openMark ++ r) =
      (splitClose? kind.openMark kind.closeTag (depth + 1) r).map (prepend kind.openMark) := by
  have hopen : kind.openMark.isPrefixOf (kind.openMark ++ r) :=
    List.isPrefixOf_iff_prefix.mpr (List.prefix_append ..)
  have hclose : ¬ kind.closeTag.isPrefixOf (kind.openMark ++ r) := by
    rw [List.isPrefixOf_iff_prefix, closeTag_eq]
    simp [BlockKind.openMark, blockMark, openBraces, List.cons_prefix_cons]
  obtain ⟨c, t, hmark⟩ := List.exists_cons_of_ne_nil kind.openMark_ne_nil
  rw [hmark, List.cons_append] at hopen hclose ⊢
  rw [splitClose?.eq_def]
  simp only [hclose, hopen, if_true, List.length_cons, Nat.add_sub_cancel, List.drop_left]
  rfl

/-- The scan goes one level up at a closing tag. -/
@[simp] theorem splitClose?_closeTag_succ (kind : BlockKind) (depth : Nat) (r : Text) :
    splitClose? kind.openMark kind.closeTag (depth + 1) (kind.closeTag ++ r) =
      (splitClose? kind.openMark kind.closeTag depth r).map (prepend kind.closeTag) := by
  have hclose : kind.closeTag.isPrefixOf (kind.closeTag ++ r) :=
    List.isPrefixOf_iff_prefix.mpr (List.prefix_append ..)
  obtain ⟨c, t, hmark⟩ := List.exists_cons_of_ne_nil kind.closeTag_ne_nil
  rw [hmark, List.cons_append] at hclose ⊢
  rw [splitClose?.eq_def]
  simp only [hclose, if_true, List.length_cons, Nat.add_sub_cancel, List.drop_left]
  rfl

/-- The scan stops at a closing tag that brings the count back to where it began. -/
@[simp] theorem splitClose?_closeTag_zero (kind : BlockKind) (r : Text) :
    splitClose? kind.openMark kind.closeTag 0 (kind.closeTag ++ r) = some ([], r) := by
  have hclose : kind.closeTag.isPrefixOf (kind.closeTag ++ r) :=
    List.isPrefixOf_iff_prefix.mpr (List.prefix_append ..)
  obtain ⟨c, t, hmark⟩ := List.exists_cons_of_ne_nil kind.closeTag_ne_nil
  rw [hmark, List.cons_append] at hclose ⊢
  rw [splitClose?.eq_def]
  simp only [hclose, if_true, List.length_cons, Nat.add_sub_cancel, List.drop_left]

/-- A text in which the count of opening and closing tags of a kind comes back to where it was,
without the scan stopping on the way. -/
def Balanced (kind : BlockKind) (s : Text) : Prop :=
  ∀ depth r, splitClose? kind.openMark kind.closeTag depth (s ++ r) =
    (splitClose? kind.openMark kind.closeTag depth r).map (prepend s)

/-- Texts in which neither tag of a kind begins are balanced. -/
theorem balanced_of_avoids {kind : BlockKind} {s : Text} (hopen : Text.Avoids kind.openMark s)
    (hclose : Text.Avoids kind.closeTag s) : Balanced kind s :=
  splitClose?_append hopen hclose

/-- Balanced texts one after the other are balanced. -/
theorem Balanced.append {kind : BlockKind} {s t : Text} (hs : Balanced kind s)
    (ht : Balanced kind t) : Balanced kind (s ++ t) := by
  intro depth r
  rw [List.append_assoc, hs, ht, map_prepend_prepend]

/-- A block is balanced in every kind, if its body is. -/
theorem balanced_block {kind other : BlockKind} {path opener body : Text}
    (hopener : SpellsOpener other path opener) (hpath : IsPath path)
    (hbody : Balanced kind body) : Balanced kind (opener ++ body ++ other.closeTag) := by
  have hclosing : Text.Avoids kind.closeTag opener := by
    rw [closeTag_eq]
    exact avoids_opener _ hopener hpath (by decide)
  have hmark : Text.Avoids kind.openMark other.closeTag :=
    avoids_closeTag kind.word other (by decide)
  by_cases hkind : kind = other
  · subst hkind
    obtain ⟨inside, rfl, hbrace⟩ := hopener.exists_inside hpath
    have hinside : Balanced kind inside := by
      have hmem : '\x7b' ∉ inside := fun h => hbrace (by simp [h])
      exact balanced_of_avoids (Text.avoids_of_not_mem hmem) (Text.avoids_of_not_mem hmem)
    intro depth r
    simp only [List.append_assoc]
    rw [splitClose?_openMark, hinside, hbody, splitClose?_closeTag_succ]
    simp only [map_prepend_prepend]
  · have hopen := avoids_openMark_opener hopener hpath hkind
    exact ((balanced_of_avoids hopen hclosing).append hbody).append
      (balanced_of_avoids hmark (avoids_closeTag_closeTag hkind))

/-! ### Whole blocks -/

/-- In a scan that begins at `depth` the closing tag behind a text is the one to stop at, whatever
comes then. -/
def ClosesAt (kind : BlockKind) (depth : Nat) (body : Text) : Prop :=
  ∀ r, splitClose? kind.openMark kind.closeTag depth (body ++ kind.closeTag ++ r) = some (body, r)

/-- The scan stops behind a balanced text. -/
theorem Balanced.closesAt {kind : BlockKind} {body : Text} (h : Balanced kind body) :
    ClosesAt kind 0 body := by
  intro r
  rw [List.append_assoc, h, splitClose?_closeTag_zero, Option.map_some, prepend, List.append_nil]

/-- A mark that is no longer than a tag and begins before it ends with it at the latest. -/
theorem prefix_append_of_length_le {mark s tag r : Text} (hlength : mark.length ≤ tag.length)
    (h : mark <+: s ++ tag ++ r) (t : Text) : mark <+: s ++ tag ++ t := by
  have hwithin : mark.length ≤ (s ++ tag).length := by
    rw [List.length_append]
    omega
  exact (List.prefix_of_prefix_length_le h (List.prefix_append ..) hwithin).trans
    (List.prefix_append ..)

/-- Where a scan stops depends only on what stands up to there. -/
theorem closesAt_of_splitClose? {kind : BlockKind} {depth : Nat} {s body rest : Text}
    (h : splitClose? kind.openMark kind.closeTag depth s = some (body, rest)) :
    ClosesAt kind depth body := by
  intro r
  fun_induction splitClose? kind.openMark kind.closeTag depth s generalizing body rest with
  | case1 => simp at h
  | case2 c t hc =>
    obtain ⟨rfl, -⟩ := Prod.mk.inj (Option.some.inj h)
    exact splitClose?_closeTag_zero kind r
  | case3 c t hc outer ih =>
    obtain ⟨⟨body, rest⟩, hscan, hbody⟩ := Option.map_eq_some_iff.mp h
    obtain ⟨rfl, rfl⟩ := Prod.mk.inj hbody
    simp only [List.append_assoc] at ih ⊢
    simp [ih hscan, prepend]
  | case4 depth c t hc ho ih =>
    obtain ⟨⟨body, rest⟩, hscan, hbody⟩ := Option.map_eq_some_iff.mp h
    obtain ⟨rfl, rfl⟩ := Prod.mk.inj hbody
    simp only [List.append_assoc] at ih ⊢
    simp [ih hscan, prepend]
  | case5 depth c t hc ho ih =>
    obtain ⟨⟨body, rest⟩, hscan, hbody⟩ := Option.map_eq_some_iff.mp h
    obtain ⟨rfl, rfl⟩ := Prod.mk.inj hbody
    -- no tag begins here, and none can begin by a change behind the closing tag
    have hsame : c :: t = c :: body ++ kind.closeTag ++ rest := by
      rw [eq_of_splitClose? kind.openMark_ne_nil kind.closeTag_ne_nil hscan]
      rfl
    have hshort : kind.openMark.length ≤ kind.closeTag.length := by cases kind <;> decide
    rw [List.isPrefixOf_iff_prefix, hsame] at hc ho
    have hopen : ¬ kind.openMark <+: c :: body ++ kind.closeTag ++ r := fun hbegin =>
      ho (prefix_append_of_length_le hshort hbegin rest)
    have hclose : ¬ kind.closeTag <+: c :: body ++ kind.closeTag ++ r := fun hbegin =>
      hc (prefix_append_of_length_le le_rfl hbegin rest)
    rw [List.cons_append, List.cons_append] at hopen hclose ⊢
    rw [splitClose?_plain hopen hclose, ih hscan, Option.map_some, prepend]
    rfl

/-- A block is read back in front of every text. -/
theorem readBlock?_append {kind : BlockKind} {path opener body : Text}
    (hopener : SpellsOpener kind path opener) (hpath : IsPath path) (hbody : ClosesAt kind 0 body)
    (r : Text) : readBlock? kind (opener ++ body ++ kind.closeTag ++ r) =
      some ⟨kind, path, opener, body, r⟩ := by
  have hread := readOpener?_append hopener hpath (body ++ (kind.closeTag ++ r))
  have hclose := hbody r
  simp only [List.append_assoc] at hread hclose ⊢
  simp only [readBlock?, hread, hclose, Option.bind_eq_bind, Option.bind_some]
  simp

/-- An opening tag begins with the mark of its kind. -/
theorem prefix_of_readOpener? {kind : BlockKind} {s path rest : Text}
    (h : readOpener? kind s = some (path, rest)) : kind.openMark <+: s := by
  obtain ⟨hpath, opener, hopener, rfl⟩ := spellsOpener_of_readOpener? h
  obtain ⟨inside, rfl, -⟩ := hopener.exists_inside hpath
  rw [List.append_assoc]
  exact List.prefix_append ..

/-- Where no mark of blocks stands, no opening tag is read. -/
theorem readOpener?_eq_none {s : Text} (h : ¬ blockMark <+: s) (kind : BlockKind) :
    readOpener? kind s = none := by
  rw [Option.eq_none_iff_forall_ne_some]
  rintro ⟨path, rest⟩ hread
  exact h ((blockMark_prefix_openMark kind).trans (prefix_of_readOpener? hread))

/-- The opening tag of a kind is no opening tag of another kind. -/
theorem readOpener?_opener_of_ne {kind other : BlockKind} {path opener : Text}
    (h : SpellsOpener kind path opener) (hpath : IsPath path) (hother : other ≠ kind) (r : Text) :
    readOpener? other (opener ++ r) = none := by
  rw [Option.eq_none_iff_forall_ne_some]
  rintro ⟨path', rest⟩ hread
  have hprefix := prefix_of_readOpener? hread
  obtain ⟨inside, rfl, -⟩ := h.exists_inside hpath
  rw [List.append_assoc] at hprefix
  exact hother (BlockKind.eq_of_openMark_prefix hprefix)

/-- Where no mark of blocks stands, no block is read. -/
theorem readAnyBlock?_eq_none {s : Text} (h : ¬ blockMark <+: s) : readAnyBlock? s = none := by
  rw [readAnyBlock?, List.findSome?_eq_none_iff]
  intro kind _
  simp [readBlock?, readOpener?_eq_none h]

/-- The kinds are tried in order, so what a single kind gives is what is found. -/
theorem findSome?_all {α : Type} {f : BlockKind → Option α} {kind : BlockKind} {x : α}
    (hkind : f kind = some x) (hother : ∀ other, other ≠ kind → f other = none) :
    BlockKind.all.findSome? f = some x := by
  cases kind <;> simp [BlockKind.all, hkind, hother]

/-- A block is the one that is read, whatever follows it. -/
theorem readAnyBlock?_append {kind : BlockKind} {path opener body : Text}
    (hopener : SpellsOpener kind path opener) (hpath : IsPath path) (hbody : ClosesAt kind 0 body)
    (r : Text) : readAnyBlock? (opener ++ body ++ kind.closeTag ++ r) =
      some ⟨kind, path, opener, body, r⟩ := by
  have hread := readBlock?_append hopener hpath hbody r
  refine findSome?_all hread fun other hother => ?_
  have hnone := readOpener?_opener_of_ne hopener hpath hother (body ++ (kind.closeTag ++ r))
  simp only [List.append_assoc] at hnone ⊢
  simp [readBlock?, hnone]

/-- A block that is complete: an opening tag of its kind, and a body behind which it closes. -/
structure Block.Complete (b : Block) : Prop where
  path : IsPath b.path
  opener : SpellsOpener b.kind b.path b.opener
  body : ClosesAt b.kind 0 b.body

/-- A complete block is read in front of every text. -/
theorem Block.Complete.readAnyBlock?_append {b : Block} (h : b.Complete) (r : Text) :
    readAnyBlock? (b.source ++ r) = some { b with rest := r } :=
  Template.readAnyBlock?_append h.opener h.path h.body r

/-- What is read as a block of a kind is a complete block of this kind, at the front of the text. -/
theorem complete_of_readBlock? {kind : BlockKind} {s : Text} {b : Block}
    (h : readBlock? kind s = some b) :
    b.kind = kind ∧ b.Complete ∧ s = b.source ++ b.rest := by
  simp only [readBlock?, Option.bind_eq_bind, Option.bind_eq_some_iff, Prod.exists,
    Option.some.injEq] at h
  obtain ⟨path, inside, hopener, body, rest, hclose, rfl⟩ := h
  have hinside := eq_of_splitClose? kind.openMark_ne_nil kind.closeTag_ne_nil hclose
  obtain ⟨hpath, opener, hspells, rfl⟩ := spellsOpener_of_readOpener? hopener
  have htaken : (opener ++ inside).take ((opener ++ inside).length - inside.length) = opener := by
    simp
  refine ⟨rfl, ⟨hpath, ?_, closesAt_of_splitClose? hclose⟩, ?_⟩
  · rwa [htaken]
  · rw [Block.source, htaken, hinside]
    simp

/-- The blocks of a kind that are read are the complete ones. -/
theorem readBlock?_eq_some_iff {kind : BlockKind} {s : Text} {b : Block} :
    readBlock? kind s = some b ↔ b.kind = kind ∧ b.Complete ∧ s = b.source ++ b.rest := by
  refine ⟨complete_of_readBlock?, ?_⟩
  rintro ⟨rfl, hcomplete, rfl⟩
  exact readBlock?_append hcomplete.opener hcomplete.path hcomplete.body b.rest

/-- A block and what follows it are the whole text. -/
theorem eq_of_readBlock? {kind : BlockKind} {s : Text} {b : Block}
    (h : readBlock? kind s = some b) : s = b.source ++ b.rest :=
  (complete_of_readBlock? h).2.2

/-- A block that is read is read in front of every further text. -/
theorem readBlock?_append_rest {kind : BlockKind} {s : Text} {b : Block}
    (h : readBlock? kind s = some b) (t : Text) :
    readBlock? kind (s ++ t) = some { b with rest := b.rest ++ t } := by
  obtain ⟨hkind, hcomplete, rfl⟩ := readBlock?_eq_some_iff.mp h
  rw [List.append_assoc]
  exact readBlock?_eq_some_iff.mpr ⟨hkind, ⟨hcomplete.path, hcomplete.opener, hcomplete.body⟩, rfl⟩

/-- The blocks that are read are the complete ones. -/
theorem readAnyBlock?_eq_some_iff {s : Text} {b : Block} :
    readAnyBlock? s = some b ↔ b.Complete ∧ s = b.source ++ b.rest := by
  constructor
  · intro h
    obtain ⟨kind, -, hkind⟩ := List.exists_of_findSome?_eq_some h
    exact (complete_of_readBlock? hkind).2
  · rintro ⟨hcomplete, rfl⟩
    exact hcomplete.readAnyBlock?_append b.rest

/-- A block and what follows it are the whole text. -/
theorem eq_of_readAnyBlock? {s : Text} {b : Block} (h : readAnyBlock? s = some b) :
    s = b.source ++ b.rest :=
  (readAnyBlock?_eq_some_iff.mp h).2

/-- A block that is read is read in front of every further text. -/
theorem readAnyBlock?_append_rest {s : Text} {b : Block} (h : readAnyBlock? s = some b) (t : Text) :
    readAnyBlock? (s ++ t) = some { b with rest := b.rest ++ t } := by
  obtain ⟨hcomplete, rfl⟩ := readAnyBlock?_eq_some_iff.mp h
  rw [List.append_assoc]
  exact hcomplete.readAnyBlock?_append _

/-! ### The scan for the tag between two bodies -/

/-- The two parts of a body with the tag between them are the whole body. -/
theorem eq_of_splitElse? {tag s before after : Text}
    (h : splitElse? tag s = some (before, after)) : s = before ++ tag ++ after := by
  fun_induction splitElse? tag s generalizing before after with
  | case1 => simp_all
  | case2 => simp at h
  | case3 c r hm b hb _ _ ih =>
    simp only [Option.map_eq_some_iff, Prod.exists, Prod.mk.injEq] at h
    obtain ⟨before', after', h, rfl, rfl⟩ := h
    rw [eq_of_readAnyBlock? hb, ih h]
    simp
  | case4 c r hm hb ih =>
    simp only [Option.map_eq_some_iff, Prod.exists, Prod.mk.injEq] at h
    obtain ⟨before', after', h, rfl, rfl⟩ := h
    rw [cons_eq_append_drop (by simp [blockMark]) hm, ih h]
    simp
  | case5 c r hm rest hrest =>
    simp only [Option.some.injEq, Prod.mk.injEq] at h
    obtain ⟨rfl, rfl⟩ := h
    exact (List.append_eq_of_isPrefixOf?_eq_some hrest).symm
  | case6 c r hm hrest ih =>
    simp only [Option.map_eq_some_iff, Prod.exists, Prod.mk.injEq] at h
    obtain ⟨before', after', h, rfl, rfl⟩ := h
    rw [ih h]
    simp

/-- The scan passes over a text in which neither a block nor the tag begins. -/
theorem splitElse?_append_of_avoids {tag s : Text} (hblock : Text.Avoids blockMark s)
    (htag : Text.Avoids tag s) (r : Text) :
    splitElse? tag (s ++ r) = (splitElse? tag r).map (prepend s) := by
  induction s with
  | nil => simp
  | cons c s ih =>
    have hmark : ¬ blockMark.isPrefixOf (c :: (s ++ r)) := by
      rw [List.isPrefixOf_iff_prefix]
      exact hblock.1 r
    have hhere : tag.isPrefixOf? (c :: (s ++ r)) = none := by
      rw [Option.eq_none_iff_forall_ne_some]
      intro rest hrest
      exact htag.1 r ⟨rest, List.append_eq_of_isPrefixOf?_eq_some hrest⟩
    rw [List.cons_append, splitElse?.eq_def]
    simp only [hmark, hhere, ih hblock.2 htag.2]
    exact map_prepend_prepend [c] s _

/-- The scan steps over a block as a whole. -/
theorem splitElse?_block {kind : BlockKind} {path opener body tag : Text}
    (hopener : SpellsOpener kind path opener) (hpath : IsPath path) (hbody : ClosesAt kind 0 body)
    (r : Text) : splitElse? tag (opener ++ body ++ kind.closeTag ++ r) =
      (splitElse? tag r).map (prepend (opener ++ body ++ kind.closeTag)) := by
  have hread := readAnyBlock?_append hopener hpath hbody r
  have hmark : blockMark.isPrefixOf (opener ++ body ++ kind.closeTag ++ r) := by
    obtain ⟨inside, rfl, -⟩ := hopener.exists_inside hpath
    rw [List.isPrefixOf_iff_prefix]
    simp only [List.append_assoc]
    exact (blockMark_prefix_openMark kind).trans (List.prefix_append ..)
  obtain ⟨c, t, hfirst⟩ : ∃ c t, opener ++ body ++ kind.closeTag ++ r = c :: t := by
    obtain ⟨inside, rfl, -⟩ := hopener.exists_inside hpath
    exact ⟨_, _, rfl⟩
  rw [hfirst] at hread hmark ⊢
  rw [splitElse?]
  simp only [hmark, if_true]
  split
  · next b hb =>
    rw [hread] at hb
    cases hb
    rfl
  · next hnone => simp [hread] at hnone

/-- A text without a tag between two bodies of its own: the scan comes out behind it. -/
def HidesElse (s : Text) : Prop :=
  ∀ r, splitElse? elseTag (s ++ r) = (splitElse? elseTag r).map (prepend s)

/-- Texts that hide their tags one after the other do so together. -/
theorem HidesElse.append {s t : Text} (hs : HidesElse s) (ht : HidesElse t) :
    HidesElse (s ++ t) := by
  intro r
  rw [List.append_assoc, hs, ht, map_prepend_prepend]

/-- In a text without characters there is no tag to be found. -/
@[simp] theorem splitElse?_nil : splitElse? elseTag [] = none := by
  rw [splitElse?, if_neg (by decide)]

/-- In a text that hides its tags there is none to be found. -/
theorem HidesElse.splitElse?_eq_none {s : Text} (hs : HidesElse s) :
    splitElse? elseTag s = none := by
  have hend := hs []
  rwa [List.append_nil, splitElse?_nil] at hend

/-- A body that begins with the tag is split there. -/
@[simp] theorem splitElse?_elseTag (t : Text) :
    splitElse? elseTag (elseTag ++ t) = some ([], t) := by
  have hread : elseTag.isPrefixOf? (elseTag ++ t) = some t := Text.isPrefixOf?_append elseTag t
  have hmark : ¬ blockMark.isPrefixOf (elseTag ++ t) := by
    simp [elseTag, blockMark]
  obtain ⟨c, u, hfirst⟩ : ∃ c u, elseTag ++ t = c :: u := ⟨_, _, rfl⟩
  rw [hfirst] at hread hmark ⊢
  rw [splitElse?]
  simp only [hmark, hread]
  rfl

/-- A body is split at the first tag that is not hidden. -/
theorem HidesElse.splitElse?_append {s : Text} (hs : HidesElse s) (t : Text) :
    splitElse? elseTag (s ++ elseTag ++ t) = some (s, t) := by
  rw [List.append_assoc, hs, splitElse?_elseTag, Option.map_some, prepend, List.append_nil]

end Stencil.Template
