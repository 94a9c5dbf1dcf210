import Stencil.Proofs.Template.BlockTags
import Stencil.Proofs.Template.Lossless

/-!
# Writing down what was read

What is read from a text can be written down in the plain spelling. This changes nothing but the
blanks in tags, and leaves out a tag between two bodies in front of an empty one. So braces that
open no tag stay what they are, no tag comes into being where none was, and the tags of blocks are
the same, in the same order.
-/

namespace Stencil.Template

/-- The plain spelling of what is read from a text. -/
def respelled (s : Text) : Text := plainAll (parseBare s).nodes

/-- The plain spelling of the body of a block. The tag between two bodies is left out in front of a
second body without nodes. -/
def BlockKind.plainBody (kind : BlockKind) (first second : List Node) : Text :=
  match kind, second with
  | .conditional, _ :: _ => plainAll first ++ elseTag ++ plainAll second
  | _, _ => plainAll first

/-- The body of a block with its parts in plain spelling. -/
def Block.respelledBody (b : Block) : Text :=
  b.kind.plainBody (parseBare b.parts.1).nodes (parseBare b.parts.2).nodes

/-! ### Step by step -/

/-- The plain spelling of nodes is the text that they begin with and the spelling of the others. -/
theorem plainAll_eq_append (nodes : List Node) :
    plainAll nodes = leadingText nodes ++ plainAll (behindText nodes) := by
  cases nodes with
  | nil => rfl
  | cons node rest => cases node <;> rfl

/-- Text before nodes is spelled as it stands. -/
theorem plainAll_addText (s : Text) (p : Parsed) :
    plainAll (p.addText s).nodes = s ++ plainAll p.nodes := by
  cases s with
  | nil => rfl
  | cons c s =>
    rw [nodes_addText (List.cons_ne_nil c s), plainAll, Node.plain, List.append_assoc,
      ← plainAll_eq_append]

/-- A block is spelled with its opening tag, the spelling of its body, and its closing tag. -/
theorem plain_node (kind : BlockKind) (path : Text) (first second : List Node) :
    (kind.node path first second).plain =
      kind.plainOpener path ++ kind.plainBody first second ++ kind.closeTag := by
  cases kind with
  | conditional =>
    cases second with
    | nil => rfl
    | cons => simp [BlockKind.node, Node.plain, BlockKind.plainBody, plainAll]
  | _ => rfl

/-- The plain spelling of a complete tag is a complete tag of the same node. -/
theorem SpellsInline.plain {node : Node} {tag : Text} (h : SpellsInline node tag) :
    SpellsInline node node.plain := by
  cases h with
  | escaped hpath _ => exact .escaped hpath (.intro blanks_space blanks_space)
  | raw hpath _ => exact .raw hpath (.intro blanks_space blanks_space)
  | partialRef hname _ => exact .partialRef hname (.intro blanks_space blanks_space)

/-- Nothing is written down as nothing. -/
@[simp] theorem respelled_nil : respelled [] = [] := by
  rw [respelled, parseBare_nil]
  rfl

/-- A character that is read as text stays. -/
theorem respelled_plain {c : Char} {r : Text} (h : Directive.read (c :: r) = .plain) :
    respelled (c :: r) = c :: respelled r := by
  rw [respelled, parseBare_plain h, plainAll_addText]
  rfl

/-- A tag without a body is written down in its plain spelling. -/
theorem respelled_inline {s rest : Text} {node : Node}
    (h : Directive.read s = .inline node rest) :
    respelled s = node.plain ++ respelled rest := by
  rw [respelled, parseBare_inline h]
  rfl

/-- An opening tag without its closing tag stays as it is written. -/
theorem respelled_unmatched {s opener rest : Text} {kind : BlockKind}
    (h : Directive.read s = .unmatched kind opener rest) :
    respelled s = opener ++ respelled rest := by
  rw [respelled, parseBare_unmatched h]
  exact plainAll_addText opener (parseBare rest)

/-- A block is written down with its tags and its parts in plain spelling. -/
theorem respelled_block {s : Text} {b : Block} (h : Directive.read s = .block b) :
    respelled s =
      b.kind.plainOpener b.path ++ b.respelledBody ++ b.kind.closeTag ++ respelled b.rest := by
  rw [respelled, parseBare_block h]
  simp only [Parsed.report, Parsed.addNode, plainAll, plain_node]
  rfl

/-! ### Braces -/

/-- Whether a text is empty or begins with two opening braces. -/
def Opens (s : Text) : Prop := s = [] ∨ openBraces <+: s

/-- A tag that begins in a text with nothing or two opening braces behind it stands in the text. -/
theorem Opens.prefix_append_iff {tail s y : Text} (hy : Opens y)
    (htail : Text.Avoids openBraces tail) (hs : s ≠ []) :
    '\x7b' :: tail <+: s ++ y ↔ '\x7b' :: tail <+: s := by
  rcases hy with rfl | hy
  · rw [List.append_nil]
  · exact prefix_append_openBraces_iff htail hs hy

/-- The tags of a text with nothing or two opening braces behind it are those of the text and those
that follow. -/
theorem Opens.blockTags_append {y : Text} (hy : Opens y) (s : Text) :
    blockTags (s ++ y) = blockTags s ++ blockTags y := by
  rcases hy with rfl | hy
  · rw [blockTags, List.append_nil, List.append_nil]
  · exact Template.blockTags_append hy s

/-- A node other than text begins with two opening braces, however it is spelled. -/
theorem openBraces_prefix_of_spells {node : Node} {s : Text} (h : Spells node s)
    (htext : node.isText = false) : openBraces <+: s := by
  have htag {opening argument closing tag : Text} (h : SpellsTag opening argument closing tag) :
      opening <+: tag := by
    cases h
    simp only [List.append_assoc]
    exact List.prefix_append ..
  have hopener {kind : BlockKind} {path opener : Text} (h : SpellsOpener kind path opener)
      (r : Text) : openBraces <+: opener ++ r := by
    cases h
    simp only [BlockKind.openMark, blockMark, List.append_assoc]
    exact List.prefix_append ..
  cases h with
  | text s => contradiction
  | escaped h => exact htag h
  | raw h => exact List.IsPrefix.trans ⟨['\x7b'], rfl⟩ (htag h)
  | partialRef h => exact List.IsPrefix.trans ⟨['>'], rfl⟩ (htag h)
  | conditional h =>
    simp only [List.append_assoc]
    exact hopener h _
  | conditionalThen h | negated h | each h | within h =>
    rw [List.append_assoc]
    exact hopener h _

/-- Behind the text that well-formed nodes begin with, nothing or two opening braces follow in each
of their spellings. -/
theorem exists_behind_leadingText {text path : Text → Prop} {nodes : List Node} {s : Text}
    (h : SpellsAll nodes s) (hwell : WellFormedAll text path nodes) :
    ∃ z, s = leadingText nodes ++ z ∧ Opens z := by
  have hopens {nodes : List Node} {s : Text} (h : SpellsAll nodes s)
      (hbegins : beginsWithText nodes = false) : Opens s := by
    cases h with
    | nil => exact Or.inl rfl
    | cons hnode _ =>
      exact Or.inr ((openBraces_prefix_of_spells hnode hbegins).trans (List.prefix_append ..))
  cases h with
  | nil => exact ⟨[], rfl, Or.inl rfl⟩
  | @cons node rest t u hnode hrest =>
    cases htext : node.isText with
    | true =>
      cases hnode with
      | text t =>
        have hnext : beginsWithText rest = false := by
          simpa [Node.isText] using hwell.2.1
        exact ⟨u, rfl, hopens hrest hnext⟩
      | _ => contradiction
    | false =>
      have hlead : leadingText (node :: rest) = [] := by
        cases node <;> first | rfl | contradiction
      rw [hlead]
      exact ⟨t ++ u, rfl, hopens (.cons hnode hrest) htext⟩

/-- A text begins with the text that is read first, then nothing or two opening braces follow; when
it is written down anew this stays. -/
theorem exists_behind (s : Text) :
    ∃ z z', s = leadingText (parseBare s).nodes ++ z ∧ Opens z ∧
      respelled s = leadingText (parseBare s).nodes ++ z' ∧ Opens z' := by
  obtain ⟨z, hz, hopens⟩ :=
    exists_behind_leadingText (spellsAll_parseBare s) (wellFormedAll_parseBare s)
  obtain ⟨z', hz', hopens'⟩ :=
    exists_behind_leadingText (spellsAll_plainAll _) (wellFormedAll_parseBare s)
  exact ⟨z, z', hz, hopens, hz', hopens'⟩

/-- A tag with no two opening braces behind its first one begins in front of a text if it does so
in front of the text that is written down. -/
theorem prefix_cons_respelled_iff {tail : Text} (htail : Text.Avoids openBraces tail) (c : Char)
    (r : Text) : '\x7b' :: tail <+: c :: respelled r ↔ '\x7b' :: tail <+: c :: r := by
  obtain ⟨z, z', hz, hopens, hz', hopens'⟩ := exists_behind r
  have hne := List.cons_ne_nil c (leadingText (parseBare r).nodes)
  have hold : '\x7b' :: tail <+: c :: r ↔
      '\x7b' :: tail <+: c :: leadingText (parseBare r).nodes := by
    conv_lhs => rw [hz]
    exact hopens.prefix_append_iff htail hne
  have hnew : '\x7b' :: tail <+: c :: respelled r ↔
      '\x7b' :: tail <+: c :: leadingText (parseBare r).nodes := by
    rw [hz']
    exact hopens'.prefix_append_iff htail hne
  rw [hold, hnew]

/-- A closing brace at the front of what is written down stood at the front of the text. -/
theorem closeBrace_prefix_of_respelled {s w : Text} (h : respelled s = '\x7d' :: w) :
    ['\x7d'] <+: s := by
  obtain ⟨z, z', hz, -, hz', hopens⟩ := exists_behind s
  rw [h] at hz'
  cases hlead : leadingText (parseBare s).nodes with
  | nil =>
    rw [hlead, List.nil_append] at hz'
    rw [← hz'] at hopens
    rcases hopens with hnil | hbraces
    · contradiction
    · exact absurd (List.cons_prefix_cons.mp hbraces).1 (by decide)
  | cons d lead =>
    rw [hlead] at hz hz'
    obtain ⟨rfl, -⟩ := List.cons.inj hz'
    exact ⟨lead ++ z, hz.symm⟩

/-! ### Tags without a body -/

/-- A tag of two braces in a further pair of them is a tag of three braces. -/
theorem SpellsTag.in_braces {path inner : Text} (h : SpellsTag openBraces path closeBraces inner) :
    SpellsTag ('\x7b' :: openBraces) path ('\x7d' :: closeBraces)
      ('\x7b' :: (inner ++ ['\x7d'])) := by
  obtain @⟨before, after, hbefore, hafter⟩ := h
  have hspells : SpellsTag ('\x7b' :: openBraces) path ('\x7d' :: closeBraces) _ :=
    .intro hbefore hafter
  simpa [openBraces, closeBraces] using hspells

/-- A tag of two braces with a closing brace behind it stands at the front of what is written down
only if such a tag stood at the front of the text. -/
theorem exists_braced_tag {path inner r : Text} (hpath : IsPath path)
    (hinner : SpellsTag openBraces path closeBraces inner)
    (h : inner ++ ['\x7d'] <+: respelled r) :
    ∃ tag, SpellsTag openBraces path closeBraces tag ∧ tag ++ ['\x7d'] <+: r := by
  obtain ⟨c, u, hmark, hc, hbrace⟩ := hinner.exists_inside hpath (by decide)
  -- no opening tag of a block begins like the tag
  have hblock {kind : BlockKind} {other opener : Text} (hopener : SpellsOpener kind other opener)
      (hother : IsPath other) (t : Text) : ¬ inner ++ ['\x7d'] <+: opener ++ t := by
    obtain ⟨inside, rfl, -⟩ := hopener.exists_inside hother
    rintro ⟨w, hw⟩
    simp [hmark, openBraces, BlockKind.openMark, blockMark] at hw
    exact hc (hw.1 ▸ by decide)
  cases r with
  | nil =>
    rw [respelled_nil] at h
    exact absurd (List.prefix_nil.mp h) (List.append_ne_nil_of_right_ne_nil _ (by decide))
  | cons d r =>
    cases hread : Directive.read (d :: r) with
    | plain =>
      have htail : Text.Avoids openBraces ('\x7b' :: (c :: u ++ ['\x7d'])) :=
        avoids_openBraces_tail (by simpa using hbrace)
      have hinside : inner ++ ['\x7d'] = '\x7b' :: '\x7b' :: (c :: u ++ ['\x7d']) := by
        rw [hmark]
        rfl
      rw [respelled_plain hread, hinside, prefix_cons_respelled_iff htail, ← hinside] at h
      exact ⟨inner, hinner, h⟩
    | unmatched kind opener rest =>
      obtain ⟨other, hother, hopener, -⟩ := spellsOpener_of_read_unmatched hread
      rw [respelled_unmatched hread] at h
      exact absurd h (hblock hopener hother _)
    | block b =>
      rw [respelled_block hread, List.append_assoc, List.append_assoc] at h
      exact absurd h (hblock (spellsOpener_plainOpener _ _) (Block.complete_of_read hread).path _)
    | inline node rest =>
      obtain ⟨tag, htag, hfront⟩ := spellsInline_of_read hread
      obtain ⟨w, hw⟩ := h
      rw [respelled_inline hread, List.append_assoc] at hw
      have hsame := readInline?_append (.escaped hpath hinner) (['\x7d'] ++ w)
      rw [hw, readInline?_append htag.plain] at hsame
      obtain ⟨rfl, hrest⟩ := Prod.mk.inj (Option.some.inj hsame)
      cases htag with
      | escaped _ htag =>
        obtain ⟨v, hv⟩ := closeBrace_prefix_of_respelled hrest
        refine ⟨tag, htag, v, ?_⟩
        rw [hfront, ← hv, List.append_assoc]

/-- A character that is read as text is read as text in what is written down. -/
theorem read_plain_respelled {c : Char} {r : Text} (h : Directive.read (c :: r) = .plain) :
    Directive.read (c :: respelled r) = .plain := by
  obtain ⟨hopener, hinline⟩ := read_plain_iff.mp h
  refine read_plain_iff.mpr ⟨fun kind path opener hpath hspells hbegin => ?_,
    fun node tag htag hbegin => ?_⟩
  · refine hopener kind path opener hpath hspells ?_
    obtain ⟨tail, rfl, htail⟩ := hspells.exists_tail hpath
    exact (prefix_cons_respelled_iff htail c r).mp hbegin
  · cases htag with
    | escaped hpath hspells =>
      refine hinline _ tag (.escaped hpath hspells) ?_
      obtain ⟨d, u, rfl, -, hbrace⟩ := hspells.exists_inside hpath (by decide)
      exact (prefix_cons_respelled_iff (avoids_openBraces_tail hbrace) c r).mp hbegin
    | partialRef hname hspells =>
      refine hinline _ tag (.partialRef hname hspells) ?_
      obtain ⟨u, rfl, hbrace⟩ := hspells.not_mem_name hname
      exact (prefix_cons_respelled_iff (avoids_openBraces_tail hbrace) c r).mp hbegin
    | raw hpath hspells =>
      obtain ⟨inner, hinner, rfl⟩ := hspells.exists_inner
      obtain ⟨rfl, hbehind⟩ := List.cons_prefix_cons.mp hbegin
      obtain ⟨tag, htag, hfront⟩ := exists_braced_tag hpath hinner hbehind
      exact hinline _ _ (.raw hpath htag.in_braces) ((List.prefix_cons_inj _).mpr hfront)

/-! ### Bodies -/

/-- From a text with characters nodes are read. -/
theorem eq_nil_of_nodes_eq_nil {s : Text} (h : (parseBare s).nodes = []) : s = [] := by
  have hspells := spellsAll_parseBare s
  rw [h] at hspells
  cases hspells
  rfl

/-- What is written down for a body is its first part, if the second one is empty, or else both
parts with the tag between them. -/
theorem Block.respelledBody_cases (b : Block) :
    b.parts.2 = [] ∧ b.respelledBody = respelled b.parts.1 ∨
      b.kind = .conditional ∧
        b.respelledBody = respelled b.parts.1 ++ elseTag ++ respelled b.parts.2 := by
  unfold respelledBody BlockKind.plainBody
  split
  · next first second hkind hsecond =>
    rw [respelled, respelled, hsecond]
    exact Or.inr ⟨hkind, rfl⟩
  · next hother =>
    refine Or.inl ⟨?_, rfl⟩
    cases hkind : b.kind with
    | conditional =>
      cases hsecond : (parseBare b.parts.2).nodes with
      | nil => exact eq_nil_of_nodes_eq_nil hsecond
      | cons node rest => exact absurd hsecond (hother node rest hkind)
    | _ => simp only [parts, hkind]

/-! ### Tags of blocks -/

/-- The tag between two bodies is no tag of a block. -/
@[simp] theorem blockTags_elseTag (t : Text) : blockTags (elseTag ++ t) = blockTags t :=
  blockTags_inline (.escaped isPath_elseWord spellsTag_elseTag) t

/-- The tags of two bodies with the tag between them are those of the one and of the other. -/
theorem blockTags_append_elseTag (s t : Text) :
    blockTags (s ++ elseTag ++ t) = blockTags s ++ blockTags t := by
  simp [blockTags_append (openBraces_prefix_elseTag t)]

/-- The tags in a body are those in its parts. -/
theorem Block.blockTags_body (b : Block) :
    blockTags b.body = blockTags b.parts.1 ++ blockTags b.parts.2 := by
  rcases b.body_cases with ⟨hnone, hbody⟩ | hbody
  · rw [hbody, hnone, blockTags, List.append_nil]
  · conv_lhs => rw [hbody]
    exact blockTags_append_elseTag _ _

/-- The tags that are written down for a body are those written down for its parts. -/
theorem Block.blockTags_respelledBody (b : Block) :
    blockTags b.respelledBody =
      blockTags (respelled b.parts.1) ++ blockTags (respelled b.parts.2) := by
  rcases b.respelledBody_cases with ⟨hnone, hbody⟩ | ⟨-, hbody⟩
  · simp [hbody, hnone, blockTags]
  · rw [hbody, blockTags_append_elseTag]

/-- The tags of a text that begins with a block. -/
theorem blockTags_block {kind : BlockKind} {path opener : Text}
    (hopener : SpellsOpener kind path opener) (hpath : IsPath path) (body r : Text) :
    blockTags (opener ++ body ++ kind.closeTag ++ r) =
      .opening kind true :: (blockTags body ++ .closing kind :: blockTags r) := by
  simp only [List.append_assoc]
  simp [blockTags_opener hopener hpath, blockTags_append (openBraces_prefix_closeTag kind r)]

/-- Where a character is read as text, the tag at the front is the one in front of what is written
down. -/
theorem tagAt?_respelled {c : Char} {r : Text} (h : Directive.read (c :: r) = .plain) :
    tagAt? (c :: respelled r) = tagAt? (c :: r) := by
  have hkind (kind : BlockKind) : tagOf? kind (c :: respelled r) = tagOf? kind (c :: r) := by
    obtain ⟨closing, hclosing, hclose⟩ := exists_tail_closeTag kind
    obtain ⟨opening, hopening, hopen⟩ := exists_tail_openMark kind
    simp only [tagOf?, List.isPrefixOf_iff_prefix, readOpener?_of_read_plain h,
      readOpener?_of_read_plain (read_plain_respelled h), hclosing, hopening,
      prefix_cons_respelled_iff hclose, prefix_cons_respelled_iff hopen]
  simp only [tagAt?, hkind]

/-- The tags of blocks are written down in order. -/
@[simp] theorem blockTags_respelled (s : Text) : blockTags (respelled s) = blockTags s := by
  induction s using reading_induction with
  | nil => simp
  | plain c r hread ih =>
    rw [respelled_plain hread, blockTags, blockTags, tagAt?_respelled hread, ih]
  | inline s node rest hread ih =>
    obtain ⟨tag, htag, rfl⟩ := spellsInline_of_read hread
    rw [respelled_inline hread, blockTags_inline htag, blockTags_inline htag.plain, ih]
  | unmatched s kind opener rest hread ih =>
    obtain ⟨path, hpath, hopener, rfl⟩ := spellsOpener_of_read_unmatched hread
    rw [respelled_unmatched hread, blockTags_opener hopener hpath,
      blockTags_opener hopener hpath, ih]
  | block s b hread hfirst hsecond hrest =>
    have hcomplete := Block.complete_of_read hread
    have hbody : blockTags b.respelledBody = blockTags b.body := by
      rw [b.blockTags_respelledBody, b.blockTags_body, hfirst, hsecond]
    rw [respelled_block hread, Directive.eq_of_read_block hread, Block.source,
      blockTags_block (spellsOpener_plainOpener ..) hcomplete.path,
      blockTags_block hcomplete.opener hcomplete.path, hbody, hrest]

/-! ### Comments -/

/-- Behind the first brace of the mark of comments no two braces open. -/
theorem avoids_openBraces_tail_commentOpen : Text.Avoids openBraces commentOpen.tail :=
  avoids_openBraces_tail (by decide)

/-- The mark of comments stands in a text with two opening braces behind it only if it stands in the
text or in what follows. -/
theorem commentOpen_infix_append {s y : Text} (hy : openBraces <+: y)
    (h : commentOpen <:+: s ++ y) : commentOpen <:+: s ∨ commentOpen <:+: y := by
  induction s with
  | nil => exact Or.inr h
  | cons c s ih =>
    rcases List.infix_cons_iff.mp h with hfirst | hlater
    · have hshort : commentOpen <+: c :: s := (prefix_append_openBraces_iff
        avoids_openBraces_tail_commentOpen (List.cons_ne_nil c s) hy).mp hfirst
      exact Or.inl hshort.isInfix
    · exact (ih hlater).imp_left List.infix_cons

/-- The parts of a body stand in it. -/
theorem Block.parts_infix (b : Block) : b.parts.1 <:+: b.body ∧ b.parts.2 <:+: b.body := by
  rcases b.body_cases with ⟨hnone, hbody⟩ | hbody
  · rw [hnone, hbody]
    exact ⟨List.infix_rfl, List.nil_infix⟩
  · constructor
    · conv_rhs => rw [hbody, List.append_assoc]
      exact (List.prefix_append ..).isInfix
    · conv_rhs => rw [hbody]
      exact (List.suffix_append ..).isInfix

/-- In what is written down a comment begins only if one began in the text. -/
theorem commentOpen_infix_of_respelled {s : Text} (h : commentOpen <:+: respelled s) :
    commentOpen <:+: s := by
  induction s using reading_induction with
  | nil => rwa [respelled_nil] at h
  | plain c r hread ih =>
    rw [respelled_plain hread] at h
    rcases List.infix_cons_iff.mp h with hfirst | hlater
    · have hold : commentOpen <+: c :: r :=
        (prefix_cons_respelled_iff avoids_openBraces_tail_commentOpen c r).mp hfirst
      exact hold.isInfix
    · exact List.infix_cons (ih hlater)
  | inline s node rest hread ih =>
    obtain ⟨tag, htag, rfl⟩ := spellsInline_of_read hread
    have havoids : Text.Avoids (openBraces ++ '!' :: ['-', '-']) node.plain :=
      htag.plain.avoids (by decide)
    rw [respelled_inline hread] at h
    exact (ih (havoids.infix_of_infix_append h)).trans (List.suffix_append ..).isInfix
  | unmatched s kind opener rest hread ih =>
    obtain ⟨path, hpath, hopener, rfl⟩ := spellsOpener_of_read_unmatched hread
    have havoids : Text.Avoids commentOpen opener :=
      avoids_opener ['-', '-'] hopener hpath (by decide)
    rw [respelled_unmatched hread] at h
    exact (ih (havoids.infix_of_infix_append h)).trans (List.suffix_append ..).isInfix
  | block s b hread hfirst hsecond hrest =>
    have hopening : Text.Avoids commentOpen (b.kind.plainOpener b.path) :=
      avoids_opener ['-', '-'] (spellsOpener_plainOpener ..) (Block.complete_of_read hread).path
        (by decide)
    have hclosing : Text.Avoids commentOpen b.kind.closeTag :=
      avoids_closeTag ['-', '-'] b.kind (by decide)
    have hwhole := Directive.eq_of_read_block hread
    have hbody : b.body <:+: s :=
      ⟨b.opener, b.kind.closeTag ++ b.rest, by simp [hwhole, Block.source]⟩
    have hbehind : b.rest <:+: s := ⟨b.source, [], by simp [hwhole]⟩
    rw [respelled_block hread] at h
    simp only [List.append_assoc] at h
    rcases commentOpen_infix_append (openBraces_prefix_closeTag b.kind _)
      (hopening.infix_of_infix_append h) with h | h
    · obtain ⟨hbefore, hafter⟩ := b.parts_infix
      rcases b.respelledBody_cases with ⟨-, heq⟩ | ⟨-, heq⟩
      · rw [heq] at h
        exact ((hfirst h).trans hbefore).trans hbody
      · rw [heq, List.append_assoc] at h
        rcases commentOpen_infix_append (openBraces_prefix_elseTag _) h with h | h
        · exact ((hfirst h).trans hbefore).trans hbody
        · exact ((hsecond (avoids_commentOpen_elseTag.infix_of_infix_append h)).trans hafter).trans
            hbody
    · exact (hrest (hclosing.infix_of_infix_append h)).trans hbehind

end Stencil.Template
