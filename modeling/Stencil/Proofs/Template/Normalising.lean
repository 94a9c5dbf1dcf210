import Stencil.Proofs.Template.ElseTag
import Stencil.Proofs.Template.Respelling

/-!
# Normalising templates

A template is normalised by writing down what is read from it in the plain spelling. Reading the
result gives the same tree and the same reports, however malformed the template is. Blocks are read
again because the tags of blocks stay; their bodies are parted at the same place because whatever
stands in front of this place is passed over again.
-/

namespace Stencil.Template

/-! ### Texts in front of the tag between two bodies -/

/-- The search for the tag between two bodies passes over a text in front of another one. -/
def Passes (s z : Text) : Prop :=
  splitElse? elseTag (s ++ z) = (splitElse? elseTag z).map (prepend s)

/-- What can stand behind the first part of a body: nothing, or the tag between two bodies. -/
def EndsPart (z : Text) : Prop := z = [] ∨ ∃ t, z = elseTag ++ t

variable {s t z y : Text}

/-- Behind the first part of a body nothing or two opening braces follow. -/
theorem EndsPart.opens (h : EndsPart z) : Opens z := by
  rcases h with rfl | ⟨t, rfl⟩
  · exact Or.inl rfl
  · exact Or.inr (openBraces_prefix_elseTag t)

/-- A text is passed over if its two pieces are, the first of them in front of the second. -/
theorem Passes.append (hs : Passes s (t ++ z)) (ht : Passes t z) : Passes (s ++ t) z := by
  rw [Passes, List.append_assoc, hs, ht, map_prepend_prepend]

/-- If a text is passed over, and the beginning of it is, the rest is passed over as well. -/
theorem Passes.of_append (h : Passes (s ++ t) z) (hs : Passes s (t ++ z)) : Passes t z := by
  have hinjective : Function.Injective (prepend s) := by
    rintro ⟨before, after⟩ ⟨before', after'⟩ heq
    obtain ⟨hbefore, hafter⟩ := Prod.mk.inj heq
    exact Prod.ext (List.append_cancel_left hbefore) hafter
  apply Option.map_injective hinjective
  rw [← hs, ← List.append_assoc, h, map_prepend_prepend]

/-- What is passed over stands in front of the place at which the search stops. -/
theorem Passes.prefix_of_splitElse? (h : Passes s z) {before after : Text}
    (hsplit : splitElse? elseTag (s ++ z) = some (before, after)) : s <+: before := by
  rw [h] at hsplit
  obtain ⟨parts, -, hparts⟩ := Option.map_eq_some_iff.mp hsplit
  exact ⟨parts.1, (Prod.mk.inj hparts).1⟩

/-- A character that is read as text is passed over, also at the end of a part. -/
theorem passes_plain {c : Char} {r : Text} (h : Directive.read (c :: r) = .plain) (hz : Opens z) :
    Passes [c] (r ++ z) := by
  have hne := List.cons_ne_nil c r
  have hopener : NoOpener (c :: r ++ z) := by
    rcases hz with rfl | hz
    · rw [List.append_nil]
      exact readOpener?_of_read_plain h
    · exact (noOpener_append_iff hne hz).mpr (readOpener?_of_read_plain h)
  have hblock : readAnyBlock? (c :: r ++ z) = none := by
    rw [Option.eq_none_iff_forall_ne_some]
    exact fun b hb => not_noOpener_of_readAnyBlock? hb hopener
  have htag : ¬ elseTag <+: c :: r ++ z := by
    have htail : Text.Avoids openBraces ('\x7b' :: (elseWord ++ closeBraces)) :=
      avoids_openBraces_tail (by decide)
    intro hbegin
    exact (read_plain_iff.mp h).2 _ _ (.escaped isPath_elseWord spellsTag_elseTag)
      ((hz.prefix_append_iff htail hne).mp hbegin)
  exact splitElse?_cons hblock htag

/-- A tag without a body is passed over, unless it is the tag between two bodies, by itself or in a
further pair of braces. -/
theorem passes_inline {node : Node} {tag : Text} (htag : SpellsInline node tag)
    (hother : tag ≠ elseTag) (hraw : tag ≠ rawElseTag) (z : Text) : Passes tag z :=
  splitElse?_append_of_avoids (htag.avoids (by decide)) (htag.avoids_elseTag hother hraw) z

/-- The search stops at the tag between two bodies in a further pair of braces. -/
theorem splitElse?_rawElseTag (t : Text) :
    splitElse? elseTag (rawElseTag ++ t) = some (['\x7b'], '\x7d' :: t) := by
  have hwhole : rawElseTag ++ t = '\x7b' :: (elseTag ++ '\x7d' :: t) := by
    simp [rawElseTag]
  have hmark : ¬ blockMark <+: '\x7b' :: (elseTag ++ '\x7d' :: t) := by
    simp [blockMark, elseTag]
  have hfront : ¬ elseTag <+: '\x7b' :: (elseTag ++ '\x7d' :: t) := by
    simp [elseTag]
  rw [hwhole, splitElse?_cons (readAnyBlock?_eq_none hmark) hfront, splitElse?_elseTag]
  rfl

/-- A tag without a body at the front of what is passed over is passed over. -/
theorem Passes.inline {node : Node} {tag : Text} (htag : SpellsInline node tag)
    (h : Passes (tag ++ t) z) : Passes tag (t ++ z) := by
  refine passes_inline htag ?_ ?_ _
  · -- the search would stop in front of the tag
    rintro rfl
    have hstop : splitElse? elseTag (elseTag ++ t ++ z) = some ([], t ++ z) := by
      simp
    exact absurd (List.prefix_nil.mp (h.prefix_of_splitElse? hstop)) (List.cons_ne_nil _ _)
  · -- the search would stop behind the first brace of the tag
    rintro rfl
    have hstop : splitElse? elseTag (rawElseTag ++ t ++ z) =
        some (['\x7b'], '\x7d' :: (t ++ z)) := by
      rw [List.append_assoc, splitElse?_rawElseTag]
    have hlength := (h.prefix_of_splitElse? hstop).length_le
    simp [rawElseTag, elseTag] at hlength

/-- Where no block begins in a text that is passed over, none begins with what ends the part behind
it either. -/
theorem Passes.readAnyBlock?_eq_none (h : Passes s z) (hz : EndsPart z)
    (hnone : readAnyBlock? s = none) : readAnyBlock? (s ++ z) = none := by
  rcases hz with rfl | ⟨t, rfl⟩
  · rwa [List.append_nil]
  · rw [Option.eq_none_iff_forall_ne_some]
    intro b hb
    obtain ⟨hcomplete, hwhole⟩ := readAnyBlock?_eq_some_iff.mp hb
    -- the search would step over the block, so the block would end in the text
    have hstep : splitElse? elseTag (b.source ++ b.rest) =
        (splitElse? elseTag b.rest).map (prepend b.source) :=
      splitElse?_block hcomplete.opener hcomplete.path hcomplete.body b.rest
    rw [← hwhole, h, splitElse?_elseTag] at hstep
    obtain ⟨parts, -, hparts⟩ := Option.map_eq_some_iff.mp hstep.symm
    have hfront : b.source ++ parts.1 = s := by
      rw [← List.append_nil s]
      exact (Prod.mk.inj hparts).1
    rw [← hfront, hcomplete.readAnyBlock?_append] at hnone
    contradiction

/-! ### Bodies -/

/-- Whether an opening tag begins no block depends only on the tags that follow. -/
theorem readAnyBlock?_opener_congr {kind : BlockKind} {path opener : Text}
    (hopener : SpellsOpener kind path opener) (hpath : IsPath path)
    (htags : blockTags s = blockTags t) :
    readAnyBlock? (opener ++ s) = none ↔ readAnyBlock? (opener ++ t) = none := by
  rw [readAnyBlock?_opener_eq_none_iff hopener hpath, htags,
    readAnyBlock?_opener_eq_none_iff hopener hpath]

/-- The body that is written down for a block closes where the body of the block does. -/
theorem Block.Complete.closesAt_respelledBody {b : Block} (h : b.Complete) :
    ClosesAt b.kind 0 b.respelledBody := by
  have htags : blockTags b.body = blockTags b.respelledBody := by
    simp [b.blockTags_respelledBody, b.blockTags_body]
  exact (closesAt_congr htags).mp h.body

/-- What is passed over is passed over when it is written down anew, also if something else with the
same tags ends the part then. -/
theorem passes_respelled (hz : EndsPart z) (hy : EndsPart y) (htags : blockTags z = blockTags y)
    (h : Passes s z) : Passes (respelled s) y := by
  induction s using reading_induction with
  | nil =>
    simp [Passes]
  | plain c r hread ih =>
    rw [respelled_plain hread]
    exact (passes_plain (read_plain_respelled hread) hy.opens).append
      (ih (h.of_append (s := [c]) (passes_plain hread hz.opens)))
  | inline s node rest hread ih =>
    obtain ⟨tag, htag, rfl⟩ := spellsInline_of_read hread
    have hblank : node.plain ≠ elseTag ∧ node.plain ≠ rawElseTag := by
      cases htag <;> simp [Node.plain, elseTag, rawElseTag, openBraces]
    rw [respelled_inline hread]
    exact (passes_inline htag.plain hblank.1 hblank.2 _).append (ih (h.of_append (h.inline htag)))
  | unmatched s kind opener rest hread ih =>
    have hnone := readAnyBlock?_of_read_unmatched hread
    obtain ⟨path, hpath, hopener, rfl⟩ := spellsOpener_of_read_unmatched hread
    have hbehind : readAnyBlock? (opener ++ (rest ++ z)) = none := by
      rw [← List.append_assoc]
      exact h.readAnyBlock?_eq_none hz hnone
    have hsame : blockTags (rest ++ z) = blockTags (respelled rest ++ y) := by
      simp [hz.opens.blockTags_append, hy.opens.blockTags_append, htags]
    rw [respelled_unmatched hread]
    exact Passes.append
      (splitElse?_opener hpath hopener
        ((readAnyBlock?_opener_congr hopener hpath hsame).mp hbehind))
      (ih (h.of_append (splitElse?_opener hpath hopener hbehind)))
  | block s b hread _ _ hrest =>
    have hcomplete := Block.complete_of_read hread
    rw [Directive.eq_of_read_block hread] at h
    have hold : Passes b.source (b.rest ++ z) :=
      splitElse?_block hcomplete.opener hcomplete.path hcomplete.body _
    have hnew : Passes (b.kind.plainOpener b.path ++ b.respelledBody ++ b.kind.closeTag)
        (respelled b.rest ++ y) :=
      splitElse?_block (spellsOpener_plainOpener ..) hcomplete.path
        hcomplete.closesAt_respelledBody _
    rw [respelled_block hread]
    exact hnew.append (hrest (h.of_append hold))

/-- The first part of the body of a conditional is passed over in front of what ends it: nothing, or
the tag between the bodies and the second part. -/
theorem Block.exists_passes {b : Block} (hkind : b.kind = .conditional) :
    ∃ z, EndsPart z ∧ blockTags z = blockTags b.parts.2 ∧ Passes b.parts.1 z := by
  obtain ⟨kind, path, opener, body, rest⟩ := b
  obtain rfl : kind = .conditional := hkind
  rw [parts_conditional]
  cases hsplit : splitElse? elseTag body with
  | none =>
    refine ⟨[], Or.inl rfl, rfl, ?_⟩
    rw [Passes, List.append_nil, splitElse?_nil]
    exact hsplit
  | some parts =>
    obtain ⟨before, after⟩ := parts
    refine ⟨elseTag ++ after, Or.inr ⟨after, rfl⟩, blockTags_elseTag after, ?_⟩
    rw [Passes, Option.getD_some, splitElse?_elseTag, ← List.append_assoc,
      ← eq_of_splitElse? hsplit, hsplit, Option.map_some, prepend, List.append_nil]

/-- The body that is written down for a block has the parts of the block, written down. -/
theorem Block.parts_respelled (b : Block) (opener rest : Text) :
    parts ⟨b.kind, b.path, opener, b.respelledBody, rest⟩ =
      (respelled b.parts.1, respelled b.parts.2) := by
  by_cases hkind : b.kind = .conditional
  · obtain ⟨z, hz, htags, hpasses⟩ := exists_passes hkind
    rw [hkind, parts_conditional]
    rcases b.respelledBody_cases with ⟨hnone, hbody⟩ | ⟨-, hbody⟩
    · have hsearch := passes_respelled hz (y := []) (Or.inl rfl) (by rw [htags, hnone]) hpasses
      rw [Passes, List.append_nil, splitElse?_nil] at hsearch
      rw [hbody, hsearch, hnone, respelled_nil]
      rfl
    · have hsame : blockTags z = blockTags (elseTag ++ respelled b.parts.2) := by
        simp [htags]
      have hsearch := passes_respelled hz (Or.inr ⟨_, rfl⟩) hsame hpasses
      rw [Passes, splitElse?_elseTag, ← List.append_assoc, ← hbody] at hsearch
      rw [hsearch, Option.map_some, Option.getD_some, prepend, List.append_nil]
  · have hparts (path opener body rest : Text) :
        parts ⟨b.kind, path, opener, body, rest⟩ = (body, []) := by
      cases hother : b.kind with
      | conditional => exact absurd hother hkind
      | _ => rfl
    have hbody : b.parts = (b.body, []) := hparts b.path b.opener b.body b.rest
    rcases b.respelledBody_cases with ⟨hnone, hrespelled⟩ | ⟨hconditional, -⟩
    · rw [hparts, hrespelled, hnone, respelled_nil]
    · exact absurd hconditional hkind

/-! ### Reading -/

/-- What is written down is read as the text was. -/
@[simp] theorem parseBare_respelled (s : Text) : parseBare (respelled s) = parseBare s := by
  induction s using reading_induction with
  | nil => simp
  | plain c r hread ih =>
    rw [respelled_plain hread, parseBare_plain (read_plain_respelled hread), ih,
      parseBare_plain hread]
  | inline s node rest hread ih =>
    obtain ⟨tag, htag, -⟩ := spellsInline_of_read hread
    rw [respelled_inline hread, parseBare_append_inline htag.plain, ih, parseBare_inline hread]
  | unmatched s kind opener rest hread ih =>
    have hnone := readAnyBlock?_of_read_unmatched hread
    rw [parseBare_unmatched hread, respelled_unmatched hread]
    obtain ⟨path, hpath, hopener, rfl⟩ := spellsOpener_of_read_unmatched hread
    have hstays : readAnyBlock? (opener ++ respelled rest) = none :=
      (readAnyBlock?_opener_congr hopener hpath (blockTags_respelled rest).symm).mp hnone
    rw [parseBare_unmatched (read_append_opener hpath hopener hstays), ih]
  | block s b hread hfirst hsecond hrest =>
    have hcomplete := Block.complete_of_read hread
    have hagain := read_append_block (spellsOpener_plainOpener b.kind b.path) hcomplete.path
      hcomplete.closesAt_respelledBody (respelled b.rest)
    rw [respelled_block hread, parseBare_block hagain, parseBare_block hread, b.parts_respelled,
      hfirst, hsecond, hrest]

/-- **Normalising a template does not change it.** Let what is read from a template without comments
be written down: texts as they stand, tags with a single blank around each argument, and the tag
between two bodies only in front of a body with nodes. Then the same nodes and the same reports are
read from this, however malformed the template is. -/
theorem parse_plainAll_parse (hcomment : ¬ commentOpen <:+: s) :
    parse (plainAll (parse s).nodes) = parse s := by
  have hread : parse s = parseBare s := by rw [parse, stripComments_of_not_infix hcomment]
  have hagain : ¬ commentOpen <:+: respelled s := mt commentOpen_infix_of_respelled hcomment
  calc parse (plainAll (parse s).nodes) = parse (respelled s) := by rw [hread]; rfl
    _ = parseBare (respelled s) := by rw [parse, stripComments_of_not_infix hagain]
    _ = parse s := by simp [hread]

/-- A loop that opens in a conditional and closes behind it, the tag between two bodies followed by
this tag as a raw value, and a brace too many in front of a value. -/
theorem parse_plainAll_parse_of_crossing :
    let s := "\x7b\x7b#if a\x7d\x7d\x7b\x7b#each b\x7d\x7d".toList
      ++ "\x7b\x7belse\x7d\x7d\x7b\x7b\x7belse\x7d\x7d\x7d\x7b\x7b/if\x7d\x7d".toList
      ++ "\x7b\x7b\x7bx\x7d\x7d\x7b\x7b/each\x7d\x7d".toList
    let normal := "\x7b\x7b#if a \x7d\x7d\x7b\x7b#each b\x7d\x7d".toList
      ++ "\x7b\x7belse\x7d\x7d\x7b\x7b\x7b else \x7d\x7d\x7d\x7b\x7b/if\x7d\x7d".toList
      ++ "\x7b\x7b\x7b x \x7d\x7d\x7b\x7b/each\x7d\x7d".toList
    ¬ commentOpen <:+: s ∧ plainAll (parse s).nodes = normal ∧ parse normal = parse s := by
  intro s normal
  have hcomment : ¬ commentOpen <:+: s := by decide +kernel
  have hnormal : plainAll (parse s).nodes = normal := by decide +kernel
  refine ⟨hcomment, hnormal, ?_⟩
  rw [← hnormal]
  exact parse_plainAll_parse hcomment

end Stencil.Template
