import Stencil.Proofs.Template.Crossing

/-!
# The tags of blocks

Whether every opening tag begins a block depends only on the tags of blocks in a text and their
order, not on what stands between them. So a check of one text tells about another text with the
same tags.
-/

namespace Stencil.Template

/-- A tag of a block. -/
inductive BlockTag
  /-- The mark of opening tags of a kind. The scan for the closing tag counts it also where no
  complete opening tag stands. -/
  | opening (kind : BlockKind) (complete : Bool)
  | closing (kind : BlockKind)
deriving DecidableEq, Repr

/-- The tag of a block of a kind at the front of a text. -/
def tagOf? (kind : BlockKind) (s : Text) : Option BlockTag :=
  if kind.closeTag.isPrefixOf s then some (.closing kind)
  else if kind.openMark.isPrefixOf s then some (.opening kind (readOpener? kind s).isSome)
  else none

/-- The tag of a block at the front of a text. -/
def tagAt? (s : Text) : Option BlockTag := BlockKind.all.findSome? (tagOf? · s)

/-- The tags of blocks in a text, in order. -/
def blockTags : Text → List BlockTag
  | [] => []
  | c :: r => (tagAt? (c :: r)).toList ++ blockTags r

/-! ### Tags in a text -/

/-- Where neither the closing tag of a kind nor the mark of its opening tags stands, no tag of this
kind stands. -/
theorem tagOf?_eq_none {kind : BlockKind} {s : Text} (hclose : ¬ kind.closeTag <+: s)
    (hopen : ¬ kind.openMark <+: s) : tagOf? kind s = none := by
  rw [← List.isPrefixOf_iff_prefix] at hclose hopen
  rw [tagOf?, if_neg hclose, if_neg hopen]

/-- Behind the first brace of the mark of opening tags no two braces open. -/
theorem exists_tail_openMark (kind : BlockKind) :
    ∃ tail, kind.openMark = '\x7b' :: tail ∧ Text.Avoids openBraces tail :=
  ⟨_, rfl, avoids_openBraces_tail (by cases kind <;> decide)⟩

/-- No opening tag begins where a closing tag stands. -/
theorem not_openMark_prefix_closeTag (kind other : BlockKind) (r : Text) :
    ¬ kind.openMark <+: other.closeTag ++ r := by
  have havoids : Text.Avoids kind.openMark other.closeTag :=
    avoids_closeTag kind.word other (by decide)
  obtain ⟨tail, htag, -⟩ := exists_tail_closeTag other
  rw [htag] at havoids ⊢
  exact havoids.1 r

/-- No closing tag begins where an opening tag stands. -/
theorem not_closeTag_prefix_openMark (kind other : BlockKind) (r : Text) :
    ¬ kind.closeTag <+: other.openMark ++ r := by
  rw [closeTag_eq]
  simp [BlockKind.openMark, blockMark, openBraces, List.cons_prefix_cons]

/-- The closing tag of a kind is the tag that stands at its front. -/
@[simp] theorem tagAt?_closeTag (kind : BlockKind) (r : Text) :
    tagAt? (kind.closeTag ++ r) = some (.closing kind) := by
  have hkind : tagOf? kind (kind.closeTag ++ r) = some (.closing kind) := by
    rw [tagOf?, if_pos (List.isPrefixOf_iff_prefix.mpr (List.prefix_append ..))]
  refine findSome?_all hkind fun other hother => ?_
  refine tagOf?_eq_none (fun hclose => hother ?_) (not_openMark_prefix_closeTag other kind r)
  exact BlockKind.eq_of_closeTag_prefix hclose

/-- The mark of opening tags of a kind is the tag that stands at its front. -/
theorem tagAt?_openMark (kind : BlockKind) (r : Text) :
    tagAt? (kind.openMark ++ r) =
      some (.opening kind (readOpener? kind (kind.openMark ++ r)).isSome) := by
  have hclose : ¬ kind.closeTag.isPrefixOf (kind.openMark ++ r) := by
    rw [List.isPrefixOf_iff_prefix]
    exact not_closeTag_prefix_openMark kind kind r
  have hkind : tagOf? kind (kind.openMark ++ r) =
      some (.opening kind (readOpener? kind (kind.openMark ++ r)).isSome) := by
    rw [tagOf?, if_neg hclose, if_pos (List.isPrefixOf_iff_prefix.mpr (List.prefix_append ..))]
  refine findSome?_all hkind fun other hother => ?_
  refine tagOf?_eq_none (not_closeTag_prefix_openMark other kind r) fun hopen => hother ?_
  exact BlockKind.eq_of_openMark_prefix hopen

/-- Text in which neither a closing tag nor the mark of opening tags begins has no tags. -/
theorem blockTags_append_of_avoids_marks {s : Text}
    (hopen : ∀ kind : BlockKind, Text.Avoids kind.openMark s)
    (hclose : ∀ kind : BlockKind, Text.Avoids kind.closeTag s) (t : Text) :
    blockTags (s ++ t) = blockTags t := by
  induction s with
  | nil => rfl
  | cons c s ih =>
    have hnone : tagAt? (c :: (s ++ t)) = none := by
      rw [tagAt?, List.findSome?_eq_none_iff]
      exact fun kind _ => tagOf?_eq_none ((hclose kind).1 t) ((hopen kind).1 t)
    rw [List.cons_append, blockTags, hnone, ih (fun kind => (hopen kind).2) fun kind =>
      (hclose kind).2]
    rfl

/-- Text in which no two braces open has no tags. -/
theorem blockTags_append_of_avoids {s : Text} (hs : Text.Avoids openBraces s) (t : Text) :
    blockTags (s ++ t) = blockTags t :=
  blockTags_append_of_avoids_marks (fun kind => hs.of_prefix ⟨'#' :: kind.word, rfl⟩)
    (fun kind => hs.of_prefix (closeTag_eq kind ▸ List.prefix_append ..)) t

/-- A tag without a body is no tag of a block. -/
theorem blockTags_inline {node : Node} {tag : Text} (h : SpellsInline node tag) (t : Text) :
    blockTags (tag ++ t) = blockTags t := by
  refine blockTags_append_of_avoids_marks (fun kind => h.avoids (by decide)) (fun kind => ?_) t
  rw [closeTag_eq]
  exact h.avoids (by decide)

/-- The tags of a text that begins with a closing tag. -/
@[simp] theorem blockTags_closeTag (kind : BlockKind) (r : Text) :
    blockTags (kind.closeTag ++ r) = .closing kind :: blockTags r := by
  obtain ⟨tail, htag, htail⟩ := exists_tail_closeTag kind
  have hfront := tagAt?_closeTag kind r
  rw [htag, List.cons_append] at hfront ⊢
  rw [blockTags, hfront, blockTags_append_of_avoids htail]
  rfl

/-- The tags of a text that begins with the mark of opening tags. -/
theorem blockTags_openMark (kind : BlockKind) (r : Text) :
    blockTags (kind.openMark ++ r) =
      .opening kind (readOpener? kind (kind.openMark ++ r)).isSome :: blockTags r := by
  obtain ⟨tail, htag, htail⟩ := exists_tail_openMark kind
  have hfront := tagAt?_openMark kind r
  rw [htag, List.cons_append] at hfront ⊢
  rw [blockTags, hfront, blockTags_append_of_avoids htail]
  rfl

/-- The tags of a text that begins with an opening tag. -/
theorem blockTags_opener {kind : BlockKind} {path opener : Text}
    (hopener : SpellsOpener kind path opener) (hpath : IsPath path) (r : Text) :
    blockTags (opener ++ r) = .opening kind true :: blockTags r := by
  have hread := readOpener?_append hopener hpath r
  obtain ⟨inside, rfl, hbrace⟩ := hopener.exists_inside hpath
  have hmem : '\x7b' ∉ inside := fun h => hbrace (by simp [h])
  have hinside : Text.Avoids openBraces inside := Text.avoids_of_not_mem hmem
  rw [List.append_assoc] at hread ⊢
  rw [blockTags_openMark, hread, blockTags_append_of_avoids hinside]
  rfl

/-! ### Tags in front of two opening braces -/

section Boundary

variable {s y : Text}

/-- Two opening braces behind a text do not change the tag that stands at its front. -/
theorem tagAt?_append (hs : s ≠ []) (hy : openBraces <+: y) : tagAt? (s ++ y) = tagAt? s := by
  have hkind (kind : BlockKind) : tagOf? kind (s ++ y) = tagOf? kind s := by
    obtain ⟨closing, hclosing, hclose⟩ := exists_tail_closeTag kind
    obtain ⟨opening, hopening, hopen⟩ := exists_tail_openMark kind
    simp only [tagOf?, List.isPrefixOf_iff_prefix, isSome_readOpener?_append hs hy, hclosing,
      hopening, prefix_append_openBraces_iff hclose hs hy, prefix_append_openBraces_iff hopen hs hy]
  simp only [tagAt?, hkind]

/-- The tags of a text with two opening braces behind it are those of the text and those that
follow. -/
theorem blockTags_append (hy : openBraces <+: y) (s : Text) :
    blockTags (s ++ y) = blockTags s ++ blockTags y := by
  induction s with
  | nil => rfl
  | cons c s ih =>
    have hfront := tagAt?_append (List.cons_ne_nil c s) hy
    rw [List.cons_append] at hfront
    rw [List.cons_append, blockTags, blockTags, hfront, ih, List.append_assoc]

end Boundary

/-! ### Matching tags -/

/-- Whether among tags that follow an opening tag of a kind there is the closing tag for it, `depth`
levels farther out. -/
def closes (kind : BlockKind) : Nat → List BlockTag → Bool
  | _, [] => false
  | depth, .opening other _ :: rest =>
    if other = kind then closes kind (depth + 1) rest else closes kind depth rest
  | 0, .closing other :: rest => if other = kind then true else closes kind 0 rest
  | depth + 1, .closing other :: rest =>
    if other = kind then closes kind depth rest else closes kind (depth + 1) rest

/-- Whether every complete opening tag has its closing tag. -/
def matched : List BlockTag → Bool
  | [] => true
  | .opening kind true :: rest => closes kind 0 rest && matched rest
  | _ :: rest => matched rest

/-- A tag of another kind does not matter for the closing tag of a kind. -/
theorem closes_tagAt? {kind : BlockKind} {s : Text} (hclose : ¬ kind.closeTag <+: s)
    (hopen : ¬ kind.openMark <+: s) (depth : Nat) (rest : List BlockTag) :
    closes kind depth ((tagAt? s).toList ++ rest) = closes kind depth rest := by
  cases htag : tagAt? s with
  | none => rfl
  | some tag =>
    obtain ⟨other, -, hother⟩ := List.exists_of_findSome?_eq_some htag
    have hne : other ≠ kind := by
      rintro rfl
      rw [tagOf?_eq_none hclose hopen] at hother
      contradiction
    simp only [tagOf?] at hother
    split at hother
    · cases hother
      cases depth <;> simp [closes, hne]
    · split at hother
      · cases hother
        simp [closes, hne]
      · contradiction

/-- The scan for a closing tag stops exactly if there is one among the tags of the text. -/
theorem isSome_splitClose? (kind : BlockKind) (depth : Nat) (s : Text) :
    (splitClose? kind.openMark kind.closeTag depth s).isSome = closes kind depth (blockTags s) := by
  fun_induction splitClose? kind.openMark kind.closeTag depth s with
  | case1 => rfl
  | case2 c r hc =>
    rw [cons_eq_append_drop kind.closeTag_ne_nil hc, blockTags_closeTag]
    simp [closes]
  | case3 c r hc outer ih =>
    rw [Option.isSome_map, ih, cons_eq_append_drop kind.closeTag_ne_nil hc, blockTags_closeTag]
    simp [closes]
  | case4 depth c r hc ho ih =>
    rw [Option.isSome_map, ih, cons_eq_append_drop kind.openMark_ne_nil ho, blockTags_openMark]
    simp [closes]
  | case5 depth c r hc ho ih =>
    rw [List.isPrefixOf_iff_prefix] at hc ho
    rw [Option.isSome_map, ih, blockTags, closes_tagAt? hc ho]

/-- The tags of a text that begins with an opening tag. -/
theorem blockTags_of_readOpener? {kind : BlockKind} {c : Char} {r : Text}
    (h : readOpener? kind (c :: r) ≠ none) :
    blockTags (c :: r) = .opening kind true :: blockTags r := by
  obtain ⟨⟨path, rest⟩, hread⟩ := Option.ne_none_iff_exists'.mp h
  obtain ⟨t, ht⟩ := prefix_of_readOpener? hread
  have hfront := tagAt?_openMark kind t
  rw [ht, hread] at hfront
  rw [blockTags, hfront]
  rfl

/-- The scan stops behind a body exactly if the closing tag behind the body is the first one among
the tags to stop at. -/
theorem closesAt_iff {kind : BlockKind} {depth : Nat} {body : Text} :
    ClosesAt kind depth body ↔ closes kind depth (blockTags body) = false ∧
      closes kind depth (blockTags body ++ [.closing kind]) = true := by
  have htags : blockTags body ++ [.closing kind] = blockTags (body ++ kind.closeTag) := by
    have hclosing := blockTags_closeTag kind []
    rw [List.append_nil] at hclosing
    have hbraces := openBraces_prefix_closeTag kind []
    rw [List.append_nil] at hbraces
    rw [blockTags_append hbraces, hclosing]
    rfl
  rw [htags, ← isSome_splitClose?, ← isSome_splitClose?]
  constructor
  · intro h
    have hwhole := h []
    rw [List.append_nil] at hwhole
    refine ⟨?_, by rw [hwhole]; rfl⟩
    rw [Option.isSome_eq_false_iff, Option.isNone_iff_eq_none, Option.eq_none_iff_forall_ne_some]
    rintro ⟨inner, rest⟩ hinner
    -- a scan that stops in the body stops at the same tag in front of the closing tag
    have hshort := closesAt_of_splitClose? hinner (rest ++ kind.closeTag)
    have hbody := eq_of_splitClose? kind.openMark_ne_nil kind.closeTag_ne_nil hinner
    rw [← List.append_assoc, ← hbody, hwhole] at hshort
    exact absurd (Prod.mk.inj (Option.some.inj hshort)).2.symm
      (List.append_ne_nil_of_right_ne_nil _ kind.closeTag_ne_nil)
  · rintro ⟨hnone, hsome⟩
    obtain ⟨⟨inner, rest⟩, hinner⟩ := Option.isSome_iff_exists.mp hsome
    have hcloses := closesAt_of_splitClose? hinner
    have hwhole := eq_of_splitClose? kind.openMark_ne_nil kind.closeTag_ne_nil hinner
    rw [List.append_assoc] at hwhole
    rcases List.append_eq_append_iff.mp hwhole with ⟨u, rfl, htag⟩ | ⟨u, rfl, htag⟩
    · have hlength := congrArg List.length htag
      simp only [List.length_append] at hlength
      obtain rfl : u = [] := List.eq_nil_of_length_eq_zero (by omega)
      rwa [List.append_nil] at hcloses
    · rw [← List.append_nil kind.closeTag, List.append_assoc, List.nil_append] at htag
      rcases closeTag_append_eq htag with rfl | ⟨v, rfl, -⟩
      · obtain rfl : u = [] := List.append_cancel_right (List.nil_append _ ▸ htag).symm
        rwa [List.append_nil]
      · -- the scan would stop inside of the body
        rw [← List.append_assoc, hcloses v] at hnone
        contradiction

/-- Whether the scan stops behind a body depends only on the tags in it. -/
theorem closesAt_congr {kind : BlockKind} {depth : Nat} {s t : Text}
    (h : blockTags s = blockTags t) : ClosesAt kind depth s ↔ ClosesAt kind depth t := by
  rw [closesAt_iff, closesAt_iff, h]

/-- At an opening tag a block is read exactly if the tag is closed among the tags that follow. -/
theorem exists_readAnyBlock?_iff {kind : BlockKind} {c : Char} {r : Text}
    (h : readOpener? kind (c :: r) ≠ none) :
    (∃ b, readAnyBlock? (c :: r) = some b) ↔ closes kind 0 (blockTags r) := by
  obtain ⟨⟨path, inside⟩, hread⟩ := Option.ne_none_iff_exists'.mp h
  obtain ⟨hpath, opener, hspells, hwhole⟩ := spellsOpener_of_readOpener? hread
  obtain ⟨tail, rfl, htail⟩ := hspells.exists_tail hpath
  have hr : r = tail ++ inside := (List.cons.inj hwhole).2
  have htags : blockTags r = blockTags inside := by
    rw [hr, blockTags_append_of_avoids htail]
  rw [htags, ← isSome_splitClose?, Option.isSome_iff_exists]
  constructor
  · rintro ⟨b, hb⟩
    have hblock := readBlock?_of_readAnyBlock? h hb
    simp only [readBlock?, hread, Option.bind_eq_bind, Option.bind_some] at hblock
    obtain ⟨parts, hclose, -⟩ := Option.bind_eq_some_iff.mp hblock
    exact ⟨parts, hclose⟩
  · rintro ⟨parts, hclose⟩
    have hblock : (readBlock? kind (c :: r)).isSome := by simp [readBlock?, hread, hclose]
    obtain ⟨b, hb⟩ := Option.isSome_iff_exists.mp hblock
    exact ⟨b, readAnyBlock?_of_readBlock? hb⟩

/-- An opening tag begins no block exactly if it is not closed among the tags that follow. -/
theorem readAnyBlock?_opener_eq_none_iff {kind : BlockKind} {path opener : Text}
    (hopener : SpellsOpener kind path opener) (hpath : IsPath path) (t : Text) :
    readAnyBlock? (opener ++ t) = none ↔ closes kind 0 (blockTags t) = false := by
  have hread := readOpener?_append hopener hpath t
  obtain ⟨tail, rfl, htail⟩ := hopener.exists_tail hpath
  have hfront : readOpener? kind ('\x7b' :: (tail ++ t)) ≠ none :=
    Option.ne_none_iff_exists'.mpr ⟨_, hread⟩
  have hblock := exists_readAnyBlock?_iff hfront
  rw [blockTags_append_of_avoids htail] at hblock
  rw [← Bool.not_eq_true, ← hblock, not_exists, Option.eq_none_iff_forall_ne_some]
  rfl

/-- Where no opening tag stands, no tag needs a closing one. -/
theorem matched_tagAt? {s : Text} (h : NoOpener s) (rest : List BlockTag) :
    matched ((tagAt? s).toList ++ rest) = matched rest := by
  cases htag : tagAt? s with
  | none => rfl
  | some tag =>
    obtain ⟨kind, -, hkind⟩ := List.exists_of_findSome?_eq_some htag
    simp only [tagOf?, h kind] at hkind
    split at hkind
    · cases hkind
      rfl
    · split at hkind
      · cases hkind
        rfl
      · contradiction

/-- Whether every opening tag in a text begins a block can be told from its tags. -/
theorem allMatched_iff_matched {t : Text} : AllMatched t ↔ matched (blockTags t) := by
  rw [allMatched_iff]
  induction t with
  | nil =>
    refine ⟨fun _ => rfl, fun _ s hs hopener => ?_⟩
    rw [List.suffix_nil.mp hs] at hopener
    exact absurd (noOpener_of_not_blockMark (by decide)) hopener
  | cons c r ih =>
    simp only [List.suffix_cons_iff, or_imp, forall_and, forall_eq]
    rw [ih]
    by_cases hfront : NoOpener (c :: r)
    · rw [blockTags, matched_tagAt? hfront]
      exact and_iff_right fun hopener => absurd hfront hopener
    · obtain ⟨kind, hkind⟩ := not_forall.mp hfront
      rw [forall_prop_of_true hfront, exists_readAnyBlock?_iff hkind,
        blockTags_of_readOpener? hkind, matched, Bool.and_eq_true]

/-- Texts with the same tags have all their opening tags matched or not together. -/
theorem allMatched_congr {s t : Text} (h : blockTags s = blockTags t) :
    AllMatched s ↔ AllMatched t := by
  rw [allMatched_iff_matched, allMatched_iff_matched, h]

end Stencil.Template
