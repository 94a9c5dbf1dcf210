import Stencil.Proofs.Template.Pieces
import Stencil.Proofs.Template.Reading

/-!
# Reading undoes spelling

A tree with safe texts and with paths other than `else` is read back from each of its spellings,
without diagnostics. No scan is misled by what stands in such a spelling: closing tags are counted
in pairs, tags between bodies are found at their own level only, and no comment begins.
-/

namespace Stencil.Template

/-- A text that no scan comes to rest in: tags of all kinds are balanced, the tags between bodies
are inside of blocks, and no comment begins. -/
structure SelfContained (s : Text) : Prop where
  balanced : ∀ kind, Balanced kind s
  hidesElse : HidesElse s
  uncommented : Text.Avoids commentOpen s

/-- Self-contained texts one after the other are self-contained. -/
theorem SelfContained.append {s t : Text} (hs : SelfContained s) (ht : SelfContained t) :
    SelfContained (s ++ t) where
  balanced kind := (hs.balanced kind).append (ht.balanced kind)
  hidesElse := hs.hidesElse.append ht.hidesElse
  uncommented := hs.uncommented.append ht.uncommented

/-- A text in which no mark begins is self-contained. -/
theorem selfContained_of_avoids {s : Text}
    (hsign : ∀ sign ∈ ['#', '/', '!'], ∀ mark, Text.Avoids (openBraces ++ sign :: mark) s)
    (helse : Text.Avoids elseTag s) : SelfContained s where
  balanced kind := by
    refine balanced_of_avoids (hsign '#' (by decide) kind.word) ?_
    rw [closeTag_eq]
    exact hsign '/' (by decide) _
  hidesElse := splitElse?_append_of_avoids (hsign '#' (by decide) []) helse
  uncommented := hsign '!' (by decide) ['-', '-']

/-- A safe text is self-contained. -/
theorem IsSafeText.selfContained {s : Text} (h : IsSafeText s) : SelfContained s :=
  selfContained_of_avoids (fun _ _ _ => h.avoids.of_prefix (List.prefix_append ..))
    (h.avoids.of_prefix ⟨_, rfl⟩)

/-- A block is self-contained if its body is balanced and without comments; tags between bodies may
stand in it. -/
theorem selfContained_block {kind : BlockKind} {path opener body : Text}
    (hopener : SpellsOpener kind path opener) (hpath : IsPath path)
    (hbody : ∀ kind, Balanced kind body) (hcomment : Text.Avoids commentOpen body) :
    SelfContained (opener ++ body ++ kind.closeTag) where
  balanced other := balanced_block hopener hpath (hbody other)
  hidesElse := splitElse?_block hopener hpath (hbody kind).closesAt
  uncommented := ((avoids_opener ['-', '-'] hopener hpath (by decide)).append
    hcomment).append (avoids_closeTag ['-', '-'] kind (by decide))

/-- The tag between two bodies is balanced. -/
theorem balanced_elseTag (kind : BlockKind) : Balanced kind elseTag := by
  refine balanced_of_avoids (avoids_elseTag kind.word (by decide)) ?_
  rw [closeTag_eq]
  exact avoids_elseTag _ (by decide)

/-- The tag between two bodies begins no comment. -/
theorem avoids_commentOpen_elseTag : Text.Avoids commentOpen elseTag :=
  avoids_elseTag ['-', '-'] (by decide)

mutual

/-- The spellings of a well-formed node are self-contained. -/
theorem selfContained_of_spells {node : Node} {s : Text} (h : Spells node s)
    (hwell : node.WellFormed IsSafeText IsOwnPath) : SelfContained s := by
  cases h with
  | text s => exact hwell.selfContained
  | escaped h =>
    exact selfContained_of_avoids (fun _ hsign _ => (SpellsInline.escaped hwell.1 h).avoids hsign)
      (avoids_elseTag_escaped h hwell.1 hwell.2)
  | raw h =>
    exact selfContained_of_avoids (fun _ hsign _ => (SpellsInline.raw hwell.1 h).avoids hsign)
      (avoids_elseTag_raw h hwell.1 hwell.2)
  | partialRef h =>
    obtain ⟨r, hs, hbrace⟩ := h.not_mem_name hwell
    refine selfContained_of_avoids
      (fun _ hsign _ => (SpellsInline.partialRef hwell h).avoids hsign) ?_
    rw [hs]
    exact avoids_sign ['l', 's', 'e', '\x7d', '\x7d'] (by decide) hbrace
  | conditional hopener hthen helse =>
    have hthen := selfContained_of_spellsAll hthen hwell.2.1
    have helse := selfContained_of_spellsAll helse hwell.2.2
    have hblock := selfContained_block hopener hwell.1.1
      (fun kind => ((hthen.balanced kind).append (balanced_elseTag kind)).append
        (helse.balanced kind))
      ((hthen.uncommented.append avoids_commentOpen_elseTag).append helse.uncommented)
    simpa only [List.append_assoc] using hblock
  | conditionalThen hopener hthen =>
    have hbody := selfContained_of_spellsAll hthen hwell.2.1
    exact selfContained_block hopener hwell.1.1 hbody.balanced hbody.uncommented
  | negated hopener hbody =>
    have hbody := selfContained_of_spellsAll hbody hwell.2
    exact selfContained_block hopener hwell.1.1 hbody.balanced hbody.uncommented
  | each hopener hbody =>
    have hbody := selfContained_of_spellsAll hbody hwell.2
    exact selfContained_block hopener hwell.1.1 hbody.balanced hbody.uncommented
  | within hopener hbody =>
    have hbody := selfContained_of_spellsAll hbody hwell.2
    exact selfContained_block hopener hwell.1.1 hbody.balanced hbody.uncommented

/-- The spellings of well-formed nodes are self-contained. -/
theorem selfContained_of_spellsAll {nodes : List Node} {s : Text} (h : SpellsAll nodes s)
    (hwell : WellFormedAll IsSafeText IsOwnPath nodes) : SelfContained s := by
  cases h with
  | nil => exact selfContained_of_avoids (fun _ _ _ => trivial) trivial
  | cons hnode hrest =>
    exact (selfContained_of_spells hnode hwell.1).append
      (selfContained_of_spellsAll hrest hwell.2.2)

end

/-! ### Reading spellings back -/

/-- A block is read back if the parts of its body are, and nothing is reported. -/
theorem parseBare_append_block {kind : BlockKind} {path opener body first second : Text}
    {firstNodes secondNodes : List Node} (hopener : SpellsOpener kind path opener)
    (hpath : IsPath path) (hbody : Balanced kind body) (r : Text)
    (hparts : Block.parts ⟨kind, path, opener, body, r⟩ = (first, second))
    (hfirst : parseBare first = ⟨firstNodes, []⟩) (hsecond : parseBare second = ⟨secondNodes, []⟩) :
    parseBare (opener ++ body ++ kind.closeTag ++ r) =
      (parseBare r).addNode (kind.node path firstNodes secondNodes) := by
  rw [parseBare_block (read_append_block hopener hpath hbody.closesAt r), hparts, hfirst, hsecond]
  rfl

/-- Text before nodes that do not begin with text is a node of its own. -/
theorem addText_of_not_beginsWithText {s : Text} (hs : s ≠ []) {nodes : List Node}
    (hnodes : ¬ beginsWithText nodes) (diagnostics : List Diagnostic) :
    Parsed.addText s ⟨nodes, diagnostics⟩ = ⟨.text s :: nodes, diagnostics⟩ := by
  obtain ⟨c, s, rfl⟩ := List.exists_cons_of_ne_nil hs
  cases nodes with
  | nil => rfl
  | cons node rest => cases node <;> simp_all [Parsed.addText, beginsWithText, Node.isText]

mutual

/-- A well-formed node other than text is read back from each of its spellings, whatever follows. -/
theorem parseBare_of_spells {node : Node} {s : Text} (h : Spells node s)
    (hwell : node.WellFormed IsSafeText IsOwnPath) (htext : ¬ node.isText) (r : Text) :
    parseBare (s ++ r) = (parseBare r).addNode node := by
  cases h with
  | text s => exact absurd rfl htext
  | escaped h => exact parseBare_append_inline (.escaped hwell.1 h) r
  | raw h => exact parseBare_append_inline (.raw hwell.1 h) r
  | partialRef h => exact parseBare_append_inline (.partialRef hwell h) r
  | @conditional path opener s t thenBody elseBody hopener hthen helse =>
    have hsplit := (selfContained_of_spellsAll hthen hwell.2.1).hidesElse.splitElse?_append t
    have hbalanced : Balanced .conditional (s ++ elseTag ++ t) :=
      (((selfContained_of_spellsAll hthen hwell.2.1).balanced _).append
        (balanced_elseTag _)).append ((selfContained_of_spellsAll helse hwell.2.2).balanced _)
    have hparts : Block.parts ⟨.conditional, path, opener, s ++ elseTag ++ t, r⟩ = (s, t) := by
      rw [Block.parts_conditional, hsplit]
      rfl
    have hread := parseBare_append_block hopener hwell.1.1 hbalanced r hparts
      (parseBare_of_spellsAll hthen hwell.2.1) (parseBare_of_spellsAll helse hwell.2.2)
    simpa only [List.append_assoc, BlockKind.node] using hread
  | conditionalThen hopener hthen =>
    have hbody := selfContained_of_spellsAll hthen hwell.2.1
    exact parseBare_append_block hopener hwell.1.1 (hbody.balanced _) r
      (by rw [Block.parts_conditional, hbody.hidesElse.splitElse?_eq_none]; rfl)
      (parseBare_of_spellsAll hthen hwell.2.1) parseBare_nil
  | negated hopener hbody =>
    have hbalanced := (selfContained_of_spellsAll hbody hwell.2).balanced .negated
    exact parseBare_append_block hopener hwell.1.1 hbalanced r rfl
      (parseBare_of_spellsAll hbody hwell.2) parseBare_nil
  | each hopener hbody =>
    have hbalanced := (selfContained_of_spellsAll hbody hwell.2).balanced .each
    exact parseBare_append_block hopener hwell.1.1 hbalanced r rfl
      (parseBare_of_spellsAll hbody hwell.2) parseBare_nil
  | within hopener hbody =>
    have hbalanced := (selfContained_of_spellsAll hbody hwell.2).balanced .within
    exact parseBare_append_block hopener hwell.1.1 hbalanced r rfl
      (parseBare_of_spellsAll hbody hwell.2) parseBare_nil

/-- Well-formed nodes are read back from each of their spellings. -/
theorem parseBare_of_spellsAll {nodes : List Node} {s : Text} (h : SpellsAll nodes s)
    (hwell : WellFormedAll IsSafeText IsOwnPath nodes) : parseBare s = ⟨nodes, []⟩ := by
  cases h with
  | nil => exact parseBare_nil
  | @cons node rest s t hnode hrest =>
    have hrest := parseBare_of_spellsAll hrest hwell.2.2
    by_cases htext : node.isText
    · cases hnode with
      | text s =>
        have hnext : ¬ beginsWithText rest := fun hbegins => hwell.2.1 ⟨rfl, hbegins⟩
        rw [parseBare_append_of_avoids hwell.1.avoids, hrest,
          addText_of_not_beginsWithText hwell.1.1 hnext]
      | _ => contradiction
    · rw [parseBare_of_spells hnode hwell.1 htext, hrest]
      rfl

end

/-! ### Comments -/

/-- A text in which no comment begins is its own text without comments. -/
theorem stripComments_of_not_infix {s : Text} (h : ¬ commentOpen <:+: s) (keepLines : Bool) :
    stripComments keepLines s = s := by
  induction s with
  | nil => rw [stripComments]
  | cons c r ih =>
    have hhere : readComment? (c :: r) = none := readComment?_eq_none_iff.mpr fun inside hwhole => by
      rw [List.append_assoc] at hwhole
      exact h ((List.prefix_append ..).trans hwhole).isInfix
    have hlater : ¬ commentOpen <:+: r := fun hr => h (List.infix_cons hr)
    rw [stripComments_plain hhere, ih hlater]

/-- **Reading undoes spelling.** Every spelling of a well-formed tree is read as this tree, without
diagnostics. -/
theorem parse_spelling {nodes : List Node} {s : Text} (hspells : SpellsAll nodes s)
    (hwell : WellFormedAll IsSafeText IsOwnPath nodes) : parse s = ⟨nodes, []⟩ := by
  have hcomment : ¬ commentOpen <:+: s := by
    intro hinfix
    have hall := (selfContained_of_spellsAll hspells hwell).uncommented
    rw [← List.append_nil s] at hinfix
    exact absurd (hall.infix_of_infix_append hinfix) (by decide)
  rw [parse, stripComments_of_not_infix hcomment, parseBare_of_spellsAll hspells hwell]

/-- A loop over raw values inside a conditional with a partial in its second body is read back from
a spelling with several blanks in some places and none in others. So is a conditional without nodes
in its second body that is written with the tag between the bodies. -/
theorem parse_spelling_of_loop_in_conditional :
    let nodes : List Node := [.text ['a', '\x7d'], .conditional ['x']
      [.each ['x', '.', 'y'] [.raw ['@', 'z'], .text ['\n']]] [.partialRef ['p', '/', 'q']],
      .conditional ['x'] [.text ['b']] []]
    let conditional := BlockKind.conditional.openMark ++ ['\t', '\n', 'x'] ++ closeBraces
    let loop := BlockKind.each.openMark ++ [' ', 'x', '.', 'y', '\u00a0'] ++ closeBraces
    let value := ('\x7b' :: openBraces) ++ ['@', 'z', '\n'] ++ ('\x7d' :: closeBraces)
    let included := openBraces ++ ['>', ' ', ' ', 'p', '/', 'q'] ++ closeBraces
    let first := conditional ++ (loop ++ (value ++ ['\n']) ++ BlockKind.each.closeTag) ++ elseTag
      ++ included ++ BlockKind.conditional.closeTag
    let second := conditional ++ ['b'] ++ elseTag ++ BlockKind.conditional.closeTag
    let s := ['a', '\x7d'] ++ (first ++ second)
    s ≠ plainAll nodes ∧ SpellsAll nodes s ∧ WellFormedAll IsSafeText IsOwnPath nodes ∧
      parse s = ⟨nodes, []⟩ := by
  intro nodes conditional loop value included first second s
  have hblanks (blanks : Text) (hall : blanks.all Text.isBlank) : Blanks blanks :=
    List.all_eq_true.mp hall
  have hnone : Blanks [] := blanks_nil
  have hconditional : SpellsOpener .conditional ['x'] conditional :=
    .intro (by decide) (.intro (hblanks ['\n'] (by decide)) hnone)
  have hloop : SpellsOpener .each ['x', '.', 'y'] loop :=
    .intro (by decide) (.intro hnone (hblanks ['\u00a0'] (by decide)))
  have hvalue : Spells (.raw ['@', 'z']) value :=
    .raw (.intro hnone (hblanks ['\n'] (by decide)))
  have hincluded : Spells (.partialRef ['p', '/', 'q']) included :=
    .partialRef (.intro (hblanks [' ', ' '] (by decide)) hnone)
  have heach := Spells.each hloop (.cons hvalue (spellsAll_singleton (.text ['\n'])))
  have hfirst := Spells.conditional hconditional (spellsAll_singleton heach)
    (spellsAll_singleton hincluded)
  have hempty := Spells.conditional hconditional (spellsAll_singleton (.text ['b'])) .nil
  have hsecond : Spells (.conditional ['x'] [.text ['b']] []) second := hempty
  have hspells : SpellsAll nodes s :=
    .cons (.text _) (.cons hfirst (spellsAll_singleton hsecond))
  have hword (c : Char) (hc : Text.isWord c) : IsWordText [c] :=
    ⟨List.cons_ne_nil c [], fun d hd => by rwa [List.mem_singleton.mp hd]⟩
  have hx : IsOwnPath ['x'] := ⟨.plain (.word (hword 'x' (by decide))), by decide⟩
  have hxy : IsOwnPath ['x', '.', 'y'] :=
    ⟨.plain (.step (hword 'x' (by decide)) (.word (hword 'y' (by decide)))), by decide⟩
  have hz : IsOwnPath ['@', 'z'] := ⟨.sign (.word (hword 'z' (by decide))), by decide⟩
  have hname : IsPartialName ['p', '/', 'q'] := ⟨by decide, List.all_eq_true.mp (by decide)⟩
  have ha : IsSafeText ['a', '\x7d'] := ⟨by decide, by decide, by decide⟩
  have hbreak : IsSafeText ['\n'] := ⟨by decide, by decide, by decide⟩
  have hb : IsSafeText ['b'] := ⟨by decide, by decide, by decide⟩
  have hthen : WellFormedAll IsSafeText IsOwnPath
      [.each ['x', '.', 'y'] [.raw ['@', 'z'], .text ['\n']]] :=
    ⟨⟨hxy, hz, by decide, hbreak, by decide, trivial⟩, by decide, trivial⟩
  have hwell : WellFormedAll IsSafeText IsOwnPath nodes :=
    ⟨ha, by decide, ⟨hx, hthen, hname, by decide, trivial⟩, by decide,
      ⟨hx, ⟨hb, by decide, trivial⟩, trivial⟩, by decide, trivial⟩
  exact ⟨by decide, hspells, hwell, parse_spelling hspells hwell⟩

end Stencil.Template
