import Stencil.Proofs.Template.Cut

/-!
# The tag between two bodies

The body of a conditional is split by a search that goes from one mark of blocks to the next, while
reading goes from tag to tag and resumes elsewhere behind an opening tag that begins no block. Still
the two agree on what is a block: both take the same pieces of a text, one after the other, so the
search stops where reading comes to the tag outside of blocks, and what stands on the two sides is
read as it would be by itself.
-/

namespace Stencil.Template

/-- The tag between two bodies in a further pair of braces, which is read as a raw value. -/
def rawElseTag : Text := '\x7b' :: (elseTag ++ ['\x7d'])

/-- What is left of a text when the tag, the block or the character at its front was read. -/
def remainder : Text → Text
  | [] => []
  | c :: r =>
    match Directive.read (c :: r) with
    | .plain => r
    | .inline _ rest => rest
    | .unmatched _ _ rest => rest
    | .block b => b.rest

/-- Reading a text comes to another one, which is left of it then, outside of all blocks. -/
inductive ReadsTo : Text → Text → Prop
  | refl (s : Text) : ReadsTo s s
  | step {s t : Text} (h : ReadsTo (remainder s) t) : ReadsTo s t

/-! ### Pieces of a text -/

/-- A piece in front of a text is taken as a whole: reading adds to what is read from the text, and
the search for the tag between two bodies passes over the piece. -/
structure Takes (piece rest : Text) (add : Parsed → Parsed) : Prop where
  read : parseBare (piece ++ rest) = add (parseBare rest)
  search : splitElse? elseTag (piece ++ rest) = (splitElse? elseTag rest).map (prepend piece)

/-- A piece at the front of a text, which is taken as a whole in front of what is left of the text
and of every beginning of that, without regard to what is read later. -/
structure IsPiece (piece s : Text) (add : Parsed → Parsed) : Prop where
  ne_nil : piece ≠ []
  eq_append : s = piece ++ remainder s
  takes : ∀ t, t <+: remainder s → Takes piece t add
  join : ∀ p q, (add p).join q = add (p.join q)

/-- Reading a text adds the piece at its front to what is read from what is left. -/
theorem IsPiece.parseBare_eq {piece s : Text} {add : Parsed → Parsed} (h : IsPiece piece s add) :
    parseBare s = add (parseBare (remainder s)) := by
  calc parseBare s = parseBare (piece ++ remainder s) := congrArg parseBare h.eq_append
    _ = add (parseBare (remainder s)) := (h.takes _ List.prefix_rfl).read

/-- The search passes over the piece at the front of a text. -/
theorem IsPiece.splitElse?_eq {piece s : Text} {add : Parsed → Parsed} (h : IsPiece piece s add) :
    splitElse? elseTag s = (splitElse? elseTag (remainder s)).map (prepend piece) := by
  calc splitElse? elseTag s = splitElse? elseTag (piece ++ remainder s) :=
        congrArg (splitElse? elseTag) h.eq_append
    _ = (splitElse? elseTag (remainder s)).map (prepend piece) :=
        (h.takes _ List.prefix_rfl).search

/-- The search passes over a character at which neither a block nor the tag begins. -/
theorem splitElse?_cons {c : Char} {r : Text} (hblock : readAnyBlock? (c :: r) = none)
    (htag : ¬ elseTag <+: c :: r) :
    splitElse? elseTag (c :: r) = (splitElse? elseTag r).map (prepend [c]) := by
  by_cases hmark : blockMark <+: c :: r
  · -- the search resumes behind the mark, and passes over its other two characters as well
    obtain ⟨t, ht⟩ := hmark
    obtain ⟨rfl, rfl⟩ := List.cons.inj ht
    have hsigns : Text.Avoids blockMark ['\x7b', '#'] ∧ Text.Avoids elseTag ['\x7b', '#'] := by
      simp [Text.Avoids, blockMark, elseTag, List.cons_prefix_cons]
    have hmark : blockMark.isPrefixOf ('\x7b' :: '\x7b' :: '#' :: t) := by simp [blockMark]
    have hrest : splitElse? elseTag (['\x7b', '#'] ++ t) =
        (splitElse? elseTag t).map (prepend ['\x7b', '#']) :=
      splitElse?_append_of_avoids hsigns.1 hsigns.2 t
    change splitElse? elseTag ('\x7b' :: '\x7b' :: '#' :: t) =
      (splitElse? elseTag (['\x7b', '#'] ++ t)).map (prepend ['\x7b'])
    rw [hrest, map_prepend_prepend, splitElse?]
    simp only [hmark, if_true]
    split
    · next b hb =>
      have hnone : readAnyBlock? ('\x7b' :: '\x7b' :: '#' :: t) = none := hblock
      rw [hnone] at hb
      contradiction
    · rfl
  · have hnone : elseTag.isPrefixOf? (c :: r) = none := by
      rw [Option.eq_none_iff_forall_ne_some]
      intro rest hrest
      exact htag ⟨rest, List.append_eq_of_isPrefixOf?_eq_some hrest⟩
    rw [← List.isPrefixOf_iff_prefix] at hmark
    rw [splitElse?.eq_def]
    simp only [hmark, hnone]
    rfl

/-- The search passes over an opening tag that begins no block. -/
theorem splitElse?_opener {kind : BlockKind} {path opener t : Text} (hpath : IsPath path)
    (hopener : SpellsOpener kind path opener) (hblock : readAnyBlock? (opener ++ t) = none) :
    splitElse? elseTag (opener ++ t) = (splitElse? elseTag t).map (prepend opener) := by
  have htag : ¬ elseTag <+: opener ++ t := by
    obtain ⟨inside, rfl, -⟩ := hopener.exists_inside hpath
    simp [BlockKind.openMark, blockMark, elseTag, List.cons_prefix_cons]
  obtain ⟨tail, rfl, htail⟩ := hopener.exists_tail hpath
  have hlater : splitElse? elseTag (tail ++ t) = (splitElse? elseTag t).map (prepend tail) :=
    splitElse?_append_of_avoids (htail.of_prefix ⟨['#'], rfl⟩) (htail.of_prefix ⟨_, rfl⟩) t
  rw [List.cons_append] at hblock htag ⊢
  rw [splitElse?_cons hblock htag, hlater, map_prepend_prepend]
  rfl

/-- A character that is read as text is a piece. -/
theorem isPiece_plain {c : Char} {r : Text} (h : Directive.read (c :: r) = .plain) :
    IsPiece [c] (c :: r) (Parsed.addText [c]) := by
  have hrest : remainder (c :: r) = r := by rw [remainder, h]
  refine ⟨by simp, by rw [hrest]; rfl, fun t ht => ?_, join_addText [c]⟩
  rw [hrest] at ht
  have hfront : c :: t <+: c :: r := (List.prefix_cons_inj c).mpr ht
  have hplain : Directive.read (c :: t) = .plain := by
    obtain ⟨hopener, hinline⟩ := read_plain_iff.mp h
    exact read_plain_iff.mpr
      ⟨fun kind path opener hpath hspells hbegin =>
        hopener kind path opener hpath hspells (hbegin.trans hfront),
      fun node tag htag hbegin => hinline node tag htag (hbegin.trans hfront)⟩
  have htag : ¬ elseTag <+: c :: t :=
    (read_plain_iff.mp hplain).2 _ _ (.escaped isPath_elseWord spellsTag_elseTag)
  exact ⟨parseBare_plain hplain, splitElse?_cons (readAnyBlock?_of_read_plain hplain) htag⟩

/-- A tag without a body does not begin the tag between two bodies, unless it is this tag, by itself
or in a further pair of braces. -/
theorem SpellsInline.avoids_elseTag {node : Node} {tag : Text} (h : SpellsInline node tag)
    (hother : tag ≠ elseTag) (hraw : tag ≠ rawElseTag) : Text.Avoids elseTag tag := by
  cases h with
  | escaped hpath hspells => exact avoids_elseTag_of_ne hspells hpath hother
  | raw hpath hspells =>
    obtain ⟨inner, hinner, rfl⟩ := hspells.exists_inner
    refine avoids_elseTag_inner hinner (avoids_elseTag_of_ne hinner hpath fun heq => hraw ?_)
    rw [heq, rawElseTag]
  | partialRef hname hspells =>
    obtain ⟨r, rfl, hbrace⟩ := hspells.not_mem_name hname
    exact avoids_sign ['l', 's', 'e', '\x7d', '\x7d'] (by decide) hbrace

/-- A tag without a body is a piece, unless it is the tag between two bodies or this tag in a
further pair of braces. -/
theorem isPiece_inline {s rest : Text} {node : Node} (h : Directive.read s = .inline node rest)
    (hraw : ¬ rawElseTag <:+: s) :
    s = elseTag ++ remainder s ∨ ∃ tag, IsPiece tag s (Parsed.addNode node) := by
  obtain ⟨tag, htag, hfront⟩ := spellsInline_of_read h
  have hrest : remainder s = rest := by
    cases s with
    | nil => contradiction
    | cons c r => rw [remainder, h]
  by_cases helse : tag = elseTag
  · exact Or.inl (by rw [hrest, hfront, helse])
  · have havoids : Text.Avoids elseTag tag := by
      refine htag.avoids_elseTag helse fun heq => hraw ?_
      rw [hfront, heq]
      exact (List.prefix_append ..).isInfix
    have hblock : Text.Avoids blockMark tag := htag.avoids (by decide)
    have hnode : node.isText = false := by cases htag <;> rfl
    refine Or.inr ⟨tag, htag.ne_nil, by rw [hrest, hfront], fun t _ => ?_, join_addNode hnode⟩
    exact ⟨parseBare_append_inline htag t, splitElse?_append_of_avoids hblock havoids t⟩

/-- An opening tag without its closing tag is a piece. -/
theorem isPiece_unmatched {s opener rest : Text} {kind : BlockKind}
    (h : Directive.read s = .unmatched kind opener rest) :
    IsPiece opener s (fun p => (p.addText opener).report [.unmatchedBlock kind opener]) := by
  have hrest : remainder s = rest := by
    cases s with
    | nil => contradiction
    | cons c r => rw [remainder, h]
  obtain ⟨path, hpath, hopener, rfl⟩ := spellsOpener_of_read_unmatched h
  refine ⟨hopener.ne_nil, by rw [hrest], fun t ht => ?_, fun p q => ?_⟩
  · rw [hrest] at ht
    obtain ⟨u, rfl⟩ := ht
    have hblock : readAnyBlock? (opener ++ t) = none := by
      rw [Option.eq_none_iff_forall_ne_some]
      intro b hread
      have hnone := readAnyBlock?_of_read_unmatched h
      rw [← List.append_assoc, readAnyBlock?_append_rest hread] at hnone
      contradiction
    exact ⟨parseBare_unmatched (read_append_opener hpath hopener hblock),
      splitElse?_opener hpath hopener hblock⟩
  · simp

/-- A block is a piece. -/
theorem isPiece_block {s : Text} {b : Block} (h : Directive.read s = .block b) :
    IsPiece b.source s fun p =>
      (p.addNode
          (b.kind.node b.path (parseBare b.parts.1).nodes (parseBare b.parts.2).nodes)).report
        ((parseBare b.parts.1).diagnostics ++ (parseBare b.parts.2).diagnostics) := by
  have hcomplete := Block.complete_of_read h
  have hrest : remainder s = b.rest := by
    cases s with
    | nil => contradiction
    | cons c r => rw [remainder, h]
  refine ⟨?_, ?_, fun t _ => ⟨?_, ?_⟩, fun p q => ?_⟩
  · exact List.append_ne_nil_of_right_ne_nil _ b.kind.closeTag_ne_nil
  · rw [hrest]
    exact Directive.eq_of_read_block h
  · exact parseBare_block (read_append_block hcomplete.opener hcomplete.path hcomplete.body t)
  · exact splitElse?_block hcomplete.opener hcomplete.path hcomplete.body t
  · simp [join_addNode (isText_node ..)]

/-- A text begins with the tag between two bodies, or with a piece. -/
theorem exists_isPiece {s : Text} (hne : s ≠ []) (hraw : ¬ rawElseTag <:+: s) :
    s = elseTag ++ remainder s ∨ ∃ piece add, IsPiece piece s add := by
  obtain ⟨c, r, rfl⟩ := List.exists_cons_of_ne_nil hne
  cases hread : Directive.read (c :: r) with
  | plain => exact Or.inr ⟨_, _, isPiece_plain hread⟩
  | inline node rest =>
    rcases isPiece_inline hread hraw with hfront | ⟨tag, htag⟩
    · exact Or.inl hfront
    · exact Or.inr ⟨tag, _, htag⟩
  | unmatched kind opener rest => exact Or.inr ⟨_, _, isPiece_unmatched hread⟩
  | block b => exact Or.inr ⟨_, _, isPiece_block hread⟩

/-! ### Piece by piece -/

/-- What is left of a text ends it, so what stands nowhere in the text stands nowhere in that. -/
theorem not_infix_remainder {s : Text} (hraw : ¬ rawElseTag <:+: s) :
    ¬ rawElseTag <:+: remainder s := by
  by_cases hne : s = []
  · rwa [hne] at hraw ⊢
  · have hsuffix : remainder s <:+ s := by
      rcases exists_isPiece hne hraw with hfront | ⟨piece, add, hpiece⟩
      · exact ⟨elseTag, hfront.symm⟩
      · exact ⟨piece, hpiece.eq_append.symm⟩
    exact fun h => hraw (h.trans hsuffix.isInfix)

/-- Induction along the pieces of a text without the tag between two bodies in a further pair of
braces: a text is empty, begins with the tag, or is a piece and what is left behind it. -/
theorem pieces_induction {motive : (s : Text) → ¬ rawElseTag <:+: s → Prop}
    (nil : ∀ hraw, motive [] hraw) (tag : ∀ t hraw, motive (elseTag ++ t) hraw)
    (piece : ∀ s piece add hraw, IsPiece piece s add →
      motive (remainder s) (not_infix_remainder hraw) → motive s hraw)
    (s : Text) (hraw : ¬ rawElseTag <:+: s) : motive s hraw := by
  induction hlength : s.length using Nat.strong_induction_on generalizing s with
  | _ n ih =>
    subst hlength
    by_cases hne : s = []
    · subst hne
      exact nil hraw
    · rcases exists_isPiece hne hraw with hfront | ⟨p, add, hpiece⟩
      · generalize remainder s = t at hfront
        subst hfront
        exact tag t hraw
      · have hshorter : (remainder s).length < s.length := by
          have hpos := List.length_pos_iff.mpr hpiece.ne_nil
          have hlength := congrArg List.length hpiece.eq_append
          rw [List.length_append] at hlength
          omega
        exact piece s p add hraw hpiece (ih _ hshorter _ _ rfl)

/-- Where the search splits a text, reading comes to the tag, and the two parts are read as they
would be by themselves; in the first part there is nothing to be found. -/
theorem read_of_splitElse? {s before after : Text} (hraw : ¬ rawElseTag <:+: s)
    (h : splitElse? elseTag s = some (before, after)) :
    parseBare s = (parseBare before).join ((parseBare after).addNode (.escaped elseWord)) ∧
      ReadsTo s (elseTag ++ after) ∧ splitElse? elseTag before = none := by
  induction s, hraw using pieces_induction generalizing before with
  | nil =>
    rw [splitElse?_nil] at h
    contradiction
  | tag t hraw =>
    rw [splitElse?_elseTag] at h
    obtain ⟨rfl, rfl⟩ := Prod.mk.inj (Option.some.inj h)
    refine ⟨?_, .refl _, splitElse?_nil⟩
    rw [parseBare_append_inline (.escaped isPath_elseWord spellsTag_elseTag), parseBare_nil]
    rfl
  | piece s piece add hraw hpiece ih =>
    rw [hpiece.splitElse?_eq] at h
    obtain ⟨⟨first, second⟩, hsplit, hparts⟩ := Option.map_eq_some_iff.mp h
    obtain ⟨rfl, rfl⟩ := Prod.mk.inj hparts
    obtain ⟨hread, hreach, hnone⟩ := ih hsplit
    have hfirst : Takes piece first add := by
      refine hpiece.takes first ?_
      rw [eq_of_splitElse? hsplit, List.append_assoc]
      exact List.prefix_append ..
    refine ⟨?_, .step hreach, by rw [hfirst.search, hnone]; rfl⟩
    rw [hpiece.parseBare_eq, hfirst.read, hpiece.join, hread]

/-- Where the search finds nothing, it finds nothing in what is left of the text either, and the
text does not begin with the tag. -/
theorem splitElse?_remainder {s : Text} (hraw : ¬ rawElseTag <:+: s)
    (h : splitElse? elseTag s = none) :
    splitElse? elseTag (remainder s) = none ∧ ¬ elseTag <+: s := by
  have hfront : ¬ elseTag <+: s := by
    rintro ⟨t, rfl⟩
    rw [splitElse?_elseTag] at h
    contradiction
  refine ⟨?_, hfront⟩
  by_cases hne : s = []
  · rwa [hne] at h ⊢
  · rcases exists_isPiece hne hraw with htag | ⟨piece, add, hpiece⟩
    · exact absurd ⟨_, htag.symm⟩ hfront
    · rwa [hpiece.splitElse?_eq, Option.map_eq_none_iff] at h

/-- Where the search finds nothing, reading never comes to the tag. -/
theorem not_prefix_of_readsTo {s t : Text} (hraw : ¬ rawElseTag <:+: s)
    (h : splitElse? elseTag s = none) (hreach : ReadsTo s t) : ¬ elseTag <+: t := by
  induction hreach with
  | refl s => exact (splitElse?_remainder hraw h).2
  | step _ ih => exact ih (not_infix_remainder hraw) (splitElse?_remainder hraw h).1

/-- Nodes that do not begin with text are not joined with those before them. -/
theorem joinNodes_eq_append (nodes : List Node) {rest : List Node} (h : ¬ beginsWithText rest) :
    joinNodes nodes rest = nodes ++ rest := by
  induction nodes with
  | nil => rfl
  | cons node nodes ih =>
    have hstep : joinNodes (node :: nodes) rest = node :: joinNodes nodes rest := by
      rcases rest with _ | ⟨next, rest⟩
      · cases node <;> simp [joinNodes]
      · cases next <;> cases node <;> simp_all [joinNodes, beginsWithText, Node.isText]
    rw [hstep, ih, List.cons_append]

/-- **The search for the tag between two bodies and reading agree on blocks.** In a body in which
neither a comment nor this tag in a further pair of braces stands: where the search finds the tag at
an offset, reading comes to it there, the body is read as what stands before the tag, a value named
by its word, and what stands behind it, and the search finds nothing in the part before the tag.
Where it finds nothing, reading comes to no such tag outside of blocks. -/
theorem parse_at_elseOffset? {body : Text} (hcomment : ¬ commentOpen <:+: body)
    (hraw : ¬ rawElseTag <:+: body) :
    match elseOffset? body elseTag with
    | some i =>
      ReadsTo body (body.drop i) ∧ elseTag <+: body.drop i ∧
        (parse body).nodes = (parse (body.take i)).nodes ++
          .escaped elseWord :: (parse (body.drop (i + elseTag.length))).nodes ∧
        (parse body).diagnostics = (parse (body.take i)).diagnostics ++
          (parse (body.drop (i + elseTag.length))).diagnostics ∧
        elseOffset? (body.take i) elseTag = none
    | none => ∀ t, ReadsTo body t → ¬ elseTag <+: t := by
  rw [elseOffset?]
  cases hsplit : splitElse? elseTag body with
  | none => exact fun t hreach => not_prefix_of_readsTo hraw hsplit hreach
  | some parts =>
    obtain ⟨before, after⟩ := parts
    obtain ⟨hread, hreach, hnone⟩ := read_of_splitElse? hraw hsplit
    have hbody : body = before ++ (elseTag ++ after) := by
      rw [eq_of_splitElse? hsplit, List.append_assoc]
    have htake : body.take before.length = before := by rw [hbody, List.take_left]
    have hdrop : body.drop before.length = elseTag ++ after := by rw [hbody, List.drop_left]
    have hskip : body.drop (before.length + elseTag.length) = after := by
      rw [← List.drop_drop, hdrop, List.drop_left]
    have hbefore : ¬ commentOpen <:+: before := fun h =>
      hcomment (hbody ▸ h.trans (List.prefix_append ..).isInfix)
    have hafter : ¬ commentOpen <:+: after := fun h =>
      hcomment (hbody ▸ h.trans ⟨before ++ elseTag, [], by simp⟩)
    simp only [Option.map_some, htake, hdrop, hskip, parse, stripComments_of_not_infix hcomment,
      stripComments_of_not_infix hbefore, stripComments_of_not_infix hafter, elseOffset?, hnone]
    refine ⟨hreach, List.prefix_append .., ?_, ?_, rfl⟩
    · rw [hread]
      exact joinNodes_eq_append _ (by simp [Parsed.addNode, beginsWithText, Node.isText])
    · rw [hread]
      rfl

/-- The tag in a conditional is passed over, and an opening tag that begins no block hides no tag
behind it; what is unmatched on the two sides is reported in order. -/
theorem parse_at_elseOffset?_behind_unmatched :
    let inner :=
      BlockKind.conditional.plainOpener ['x'] ++ elseTag ++ BlockKind.conditional.closeTag
    let before := inner ++ BlockKind.each.plainOpener ['y']
    let after := BlockKind.within.plainOpener ['z']
    let body := before ++ elseTag ++ after
    ¬ commentOpen <:+: body ∧ ¬ rawElseTag <:+: body ∧
      elseOffset? body elseTag = some before.length ∧
      (parse body).nodes =
        (parse before).nodes ++ .escaped elseWord :: (parse after).nodes ∧
      (parse body).diagnostics =
        [.unmatchedBlock .each (BlockKind.each.plainOpener ['y']), .unmatchedBlock .within after] ∧
      elseOffset? before elseTag = none := by
  intro inner before after body
  have hcomment : ¬ commentOpen <:+: body := by decide +kernel
  have hraw : ¬ rawElseTag <:+: body := by decide +kernel
  have hoffset : elseOffset? body elseTag = some before.length := by decide +kernel
  have h := parse_at_elseOffset? hcomment hraw
  rw [hoffset] at h
  obtain ⟨-, -, hnodes, hdiagnostics, hnone⟩ := h
  refine ⟨hcomment, hraw, hoffset, hnodes, hdiagnostics.trans ?_, hnone⟩
  decide +kernel

end Stencil.Template
