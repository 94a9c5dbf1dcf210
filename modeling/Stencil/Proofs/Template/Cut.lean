import Stencil.Proofs.Template.RoundTrip

/-!
# Cutting templates

A template may be cut in two wherever no tag can reach over the cut: the last brace before it, if
there is one, closes, and no closing brace stands right behind it. If nothing is reported for the
first piece, the two pieces are read on their own. What was read in the first piece is not changed
by the second one, since every scan in it stops before the cut.
-/

namespace Stencil.Template

/-! ### Tags at a cut -/

/-- Whether a character is a brace. -/
def isBrace (c : Char) : Bool := c == '\x7b' || c == '\x7d'

/-- A template may be cut between `a` and `b`: the last brace of `a`, if it has any, closes, and `b`
does not begin with one that does. -/
structure SafeCut (a b : Text) : Prop where
  before : (a.filter isBrace).getLast? ≠ some '\x7b'
  after : b.head? ≠ some '\x7d'

/-- Where a piece may be cut off, it may be cut off the end of the piece. -/
theorem SafeCut.of_suffix {a b s : Text} (h : SafeCut a b) (hs : s <:+ a) : SafeCut s b := by
  obtain ⟨t, rfl⟩ := hs
  refine ⟨fun hlast => h.before ?_, h.after⟩
  rw [List.filter_append, List.getLast?_append, hlast, Option.some_or]

/-- A piece that begins with an opening brace has a closing one before the cut. -/
theorem SafeCut.mem_of_cons {a b : Text} (h : SafeCut ('\x7b' :: a) b) : '\x7d' ∈ a := by
  by_contra hmem
  have hall : ∀ c ∈ ('\x7b' :: a).filter isBrace, c = '\x7b' := by
    intro c hc
    obtain ⟨hc, hbrace⟩ := List.mem_filter.mp hc
    rcases List.mem_cons.mp hc with rfl | hc
    · rfl
    · simp only [isBrace, Bool.or_eq_true, beq_iff_eq] at hbrace
      rcases hbrace with rfl | rfl
      · rfl
      · contradiction
  have hne : ('\x7b' :: a).filter isBrace ≠ [] := List.cons_ne_nil _ _
  refine h.before ?_
  rw [List.getLast?_eq_some_getLast hne, hall _ (List.getLast_mem hne)]

/-- A text in braces: it begins with an opening brace, and closing braces stand at its end only. -/
def IsBraced (tag : Text) : Prop :=
  ∃ inside count, tag = '\x7b' :: (inside ++ List.replicate count '\x7d') ∧ '\x7d' ∉ inside

/-- A text in braces that begins before a cut ends before it. -/
theorem IsBraced.prefix_of_safeCut {tag a b : Text} (htag : IsBraced tag) (ha : a ≠ [])
    (hcut : SafeCut a b) (h : tag <+: a ++ b) : tag <+: a := by
  obtain ⟨inside, count, rfl, hinside⟩ := htag
  obtain ⟨r, hr⟩ := h
  rcases List.append_eq_append_iff.mp hr with ⟨t, rfl, -⟩ | ⟨t, htag, rfl⟩
  · exact List.prefix_append ..
  · cases t with
    | nil => exact ⟨[], by rw [htag, List.append_nil, List.append_nil]⟩
    | cons c t =>
      -- the piece before the cut holds a closing brace, so only closing braces could follow it
      exfalso
      obtain ⟨d, a, rfl⟩ := List.exists_cons_of_ne_nil ha
      obtain ⟨rfl, htail⟩ := List.cons.inj htag
      have hclosed : '\x7d' ∈ a := hcut.mem_of_cons
      rcases List.append_eq_append_iff.mp htail with ⟨u, -, hclosing⟩ | ⟨u, rfl, -⟩
      · have hmem : c ∈ List.replicate count '\x7d' := by
          rw [hclosing]
          exact List.mem_append_right u List.mem_cons_self
        exact hcut.after (congrArg some (List.eq_of_mem_replicate hmem))
      · exact hinside (List.mem_append_left u hclosed)

/-- A text in braces does not stand across a cut. -/
theorem IsBraced.infix_of_safeCut {tag a b : Text} (htag : IsBraced tag) (hcut : SafeCut a b)
    (h : tag <:+: a ++ b) : tag <:+: a ∨ tag <:+: b := by
  rcases List.infix_append_iff.mp h with ha | hb | ⟨s, t, rfl, hs, ht⟩
  · exact Or.inl ha
  · exact Or.inr hb
  · cases s with
    | nil => exact Or.inr ht.isInfix
    | cons c s =>
      have hwithin := htag.prefix_of_safeCut (List.cons_ne_nil c s) (hcut.of_suffix hs)
        ((List.prefix_append_right_inj _).mpr ht)
      exact Or.inl (hwithin.isInfix.trans hs.isInfix)

/-- The mark of comments is a text in braces, without closing ones. -/
theorem isBraced_commentOpen : IsBraced commentOpen :=
  ⟨['\x7b', '!', '-', '-'], 0, rfl, by decide⟩

/-- A tag is a text in braces if no closing brace stands in its opening and its argument. -/
theorem SpellsTag.isBraced {opening argument tag : Text} (count : Nat)
    (h : SpellsTag ('\x7b' :: opening) argument (List.replicate count '\x7d') tag)
    (hopening : '\x7d' ∉ opening) (hargument : '\x7d' ∉ argument) : IsBraced tag := by
  have hblanks {s : Text} (hs : Blanks s) : '\x7d' ∉ s := fun hmem =>
    absurd (hs _ hmem) (by decide)
  obtain @⟨before, after, hbefore, hafter⟩ := h
  refine ⟨opening ++ before ++ argument ++ after, count, by simp, ?_⟩
  simp [hopening, hargument, hblanks hbefore, hblanks hafter]

/-- No closing brace stands in a path. -/
theorem IsPath.not_mem_closeBrace {path : Text} (h : IsPath path) : '\x7d' ∉ path := by
  intro hmem
  rcases h.char_of_mem hmem with hword | hpoint | hsign
  · exact absurd hword (by decide)
  · exact absurd hpoint (by decide)
  · exact absurd hsign (by decide)

/-- A tag without a body is a text in braces. -/
theorem SpellsInline.isBraced {node : Node} {tag : Text} (h : SpellsInline node tag) :
    IsBraced tag := by
  cases h with
  | escaped hpath h => exact SpellsTag.isBraced 2 h (by decide) hpath.not_mem_closeBrace
  | raw hpath h => exact SpellsTag.isBraced 3 h (by decide) hpath.not_mem_closeBrace
  | partialRef hname h =>
    have hbrace : '\x7d' ∉ _ := fun hmem => absurd (hname.2 _ hmem) (by decide)
    exact SpellsTag.isBraced 2 h (by decide) hbrace

/-- An opening tag is a text in braces. -/
theorem SpellsOpener.isBraced {kind : BlockKind} {path opener : Text}
    (h : SpellsOpener kind path opener) (hpath : IsPath path) : IsBraced opener := by
  obtain @⟨blank, tag, hblank, htag⟩ := h
  have hwide : SpellsTag (kind.openMark ++ [blank]) path closeBraces
      (kind.openMark ++ blank :: tag) := by
    obtain @⟨before, after, hbefore, hafter⟩ := htag
    have htag : SpellsTag (kind.openMark ++ [blank]) path closeBraces _ := .intro hbefore hafter
    simpa using htag
  have hblankBrace : blank ≠ '\x7d' := by
    rintro rfl
    exact absurd hblank (by decide)
  have hmark : '\x7d' ∉ '\x7b' :: '#' :: (kind.word ++ [blank]) := by
    cases kind <;> simp [BlockKind.word, hblankBrace.symm]
  exact SpellsTag.isBraced 2 hwide hmark hpath.not_mem_closeBrace

/-! ### Reading up to a cut -/

/-- What is read as a character is one whatever follows the cut, for a tag that began here would end
before the cut. -/
theorem read_plain_append {c : Char} {a b : Text} (hcut : SafeCut (c :: a) b)
    (h : Directive.read (c :: a) = .plain) : Directive.read (c :: a ++ b) = .plain := by
  obtain ⟨hopener, hinline⟩ := read_plain_iff.mp h
  have hwithin {tag : Text} (htag : IsBraced tag) (hfront : tag <+: c :: a ++ b) : tag <+: c :: a :=
    htag.prefix_of_safeCut (List.cons_ne_nil c a) hcut hfront
  refine read_plain_iff.mpr ⟨?_, ?_⟩
  · intro kind path opener hpath hspells hfront
    exact hopener kind path opener hpath hspells (hwithin (hspells.isBraced hpath) hfront)
  · intro node tag htag hfront
    exact hinline node tag htag (hwithin htag.isBraced hfront)

/-- Nodes one after the other; two texts that meet are one. -/
def joinNodes : List Node → List Node → List Node
  | [], rest => rest
  | [.text s], .text t :: rest => .text (s ++ t) :: rest
  | node :: first, rest => node :: joinNodes first rest

/-- What was read in two pieces, one after the other. -/
def Parsed.join (p q : Parsed) : Parsed :=
  ⟨joinNodes p.nodes q.nodes, p.diagnostics ++ q.diagnostics⟩

/-- A node before two pieces is a node before the first of them. -/
theorem join_addNode {node : Node} (hnode : node.isText = false) (p q : Parsed) :
    (p.addNode node).join q = (p.join q).addNode node := by
  cases node with
  | text s => contradiction
  | _ => rfl

/-- Text before two pieces is text before the first of them. -/
@[simp] theorem join_addText (s : Text) (p q : Parsed) :
    (p.addText s).join q = (p.join q).addText s := by
  cases s with
  | nil => rfl
  | cons c s =>
    obtain ⟨nodes, diagnostics⟩ := p
    obtain ⟨later, reported⟩ := q
    cases nodes with
    | nil =>
      cases later with
      | nil => rfl
      | cons node later => cases node <;> rfl
    | cons node rest =>
      cases node with
      | text t =>
        rcases rest with _ | ⟨next, rest⟩
        · cases later with
          | nil => rfl
          | cons node later => cases node <;> simp [Parsed.addText, Parsed.join, joinNodes]
        · rfl
      | _ => rfl

/-- What is reported before two pieces is reported before the first of them. -/
@[simp] theorem join_report (found : List Diagnostic) (p q : Parsed) :
    (p.report found).join q = (p.join q).report found := by
  simp only [Parsed.join, Parsed.report, List.append_assoc]

/-- The node of a block is no text. -/
@[simp] theorem isText_node (kind : BlockKind) (path : Text) (first second : List Node) :
    (kind.node path first second).isText = false := by
  cases kind <;> rfl

/-- A piece for which nothing is reported is read on its own. -/
theorem parseBare_append_of_safeCut {a b : Text} (hcut : SafeCut a b)
    (hclean : (parseBare a).diagnostics = []) :
    parseBare (a ++ b) = (parseBare a).join (parseBare b) := by
  induction a using reading_induction with
  | nil =>
    rw [parseBare_nil]
    rfl
  | plain c r hread ih =>
    rw [parseBare_plain hread, diagnostics_addText] at hclean
    have hrest := ih (hcut.of_suffix (List.suffix_cons c r)) hclean
    rw [parseBare_plain hread, join_addText, ← hrest]
    exact parseBare_plain (read_plain_append hcut hread)
  | inline s node rest hread ih =>
    obtain ⟨tag, htag, rfl⟩ := spellsInline_of_read hread
    rw [parseBare_inline hread] at hclean
    have hrest := ih (hcut.of_suffix (List.suffix_append ..)) hclean
    have hnode : node.isText = false := by cases htag <;> rfl
    rw [parseBare_inline hread, join_addNode hnode, ← hrest, List.append_assoc,
      parseBare_append_inline htag]
  | unmatched s kind opener rest hread ih =>
    rw [parseBare_unmatched hread] at hclean
    contradiction
  | block s block hread _ _ ih =>
    have hcomplete := Block.complete_of_read hread
    have hwhole := Directive.eq_of_read_block hread
    have hlater : Directive.read (s ++ b) = .block { block with rest := block.rest ++ b } := by
      rw [hwhole, List.append_assoc]
      exact read_append_block hcomplete.opener hcomplete.path hcomplete.body _
    rw [parseBare_block hread] at hclean
    have hrest := ih (hcut.of_suffix ⟨_, hwhole.symm⟩) (List.append_eq_nil_iff.mp hclean).2
    rw [parseBare_block hread, join_report, join_addNode (isText_node ..), ← hrest]
    exact parseBare_block hlater

/-- **A template may be cut in two.** If no comment begins in either piece, nothing is reported for
the first one and no tag can reach over the cut, then the whole is read as the two pieces one after
the other, and what is reported is what is reported for the second one. -/
theorem parse_append_of_safeCut {a b : Text} (ha : ¬ commentOpen <:+: a)
    (hb : ¬ commentOpen <:+: b) (hclean : (parse a).diagnostics = []) (hcut : SafeCut a b) :
    (parse (a ++ b)).nodes = joinNodes (parse a).nodes (parse b).nodes ∧
      (parse (a ++ b)).diagnostics = (parse b).diagnostics := by
  have hboth : ¬ commentOpen <:+: a ++ b := fun h =>
    (isBraced_commentOpen.infix_of_safeCut hcut h).elim ha hb
  rw [parse, stripComments_of_not_infix ha] at hclean
  rw [parse, parse, parse, stripComments_of_not_infix ha, stripComments_of_not_infix hb,
    stripComments_of_not_infix hboth, parseBare_append_of_safeCut hcut hclean, Parsed.join, hclean]
  exact ⟨rfl, List.nil_append _⟩

/-- A stray closing tag, a malformed opening tag and a stray tag between bodies stand in the first
piece, and the opening tag in the second one does not find the closing tag before it. -/
theorem parse_append_of_stray_tags :
    let loop := "\x7b\x7b#each\x7d\x7d\x7b\x7b#if a\x7d\x7d1\x7b\x7b/if\x7d\x7d".toList
    let opener := "\x7b\x7b#if b\x7d\x7d".toList
    let a := BlockKind.conditional.closeTag ++ loop ++ elseTag
    let b := ['y'] ++ opener ++ elseTag
    (parse a).diagnostics = [] ∧ SafeCut a b ∧
      (parse (a ++ b)).nodes = joinNodes (parse a).nodes (parse b).nodes ∧
      (parse (a ++ b)).diagnostics = [.unmatchedBlock .conditional opener] := by
  intro loop opener a b
  have ha : ¬ commentOpen <:+: a := by decide +kernel
  have hb : ¬ commentOpen <:+: b := by decide +kernel
  have hclean : (parse a).diagnostics = [] := by decide +kernel
  have hcut : SafeCut a b := ⟨by decide +kernel, by decide +kernel⟩
  obtain ⟨hnodes, hdiagnostics⟩ := parse_append_of_safeCut ha hb hclean hcut
  refine ⟨hclean, hcut, hnodes, hdiagnostics.trans ?_⟩
  decide +kernel

end Stencil.Template
