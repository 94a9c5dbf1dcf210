import Stencil.Proofs.Template.RoundTrip

/-!
# Reading loses nothing

Every text without comments, malformed ones included, is one of the spellings of the tree that is
read from it. This tree is in normal form: its texts are not empty, have no neighbours that are
texts, and contain no complete tag, and its arguments are paths and names.
-/

namespace Stencil.Template

/-! ### Spellings of what was read -/

/-- A complete tag is a spelling of its node. -/
theorem SpellsInline.spells {node : Node} {s : Text} (h : SpellsInline node s) : Spells node s := by
  cases h with
  | escaped _ h => exact .escaped h
  | raw _ h => exact .raw h
  | partialRef _ h => exact .partialRef h

/-- Text before a spelling is a spelling with the text before the nodes. -/
theorem spellsAll_addText {p : Parsed} {t : Text} (h : SpellsAll p.nodes t) (s : Text) :
    SpellsAll (p.addText s).nodes (s ++ t) := by
  cases s with
  | nil => exact h
  | cons c s =>
    obtain ⟨nodes, diagnostics⟩ := p
    cases h with
    | nil => exact .cons (.text _) .nil
    | @cons node rest t u hnode hrest =>
      by_cases htext : node.isText
      · cases hnode with
        | text t =>
          rw [← List.append_assoc]
          exact .cons (.text _) hrest
        | _ => contradiction
      · have hnext : ¬ beginsWithText (node :: rest) := htext
        rw [addText_of_not_beginsWithText (by simp) hnext]
        exact .cons (.text _) (.cons hnode hrest)

/-- A block is a spelling of its node, if the parts of its body are spellings of the bodies. -/
theorem spells_block {b : Block} {first second : List Node}
    (hopener : SpellsOpener b.kind b.path b.opener) (hfirst : SpellsAll first b.parts.1)
    (hsecond : SpellsAll second b.parts.2) (hnone : b.parts.2 = [] → second = []) :
    Spells (b.kind.node b.path first second) b.source := by
  obtain ⟨kind, path, opener, body, rest⟩ := b
  cases kind with
  | conditional =>
    rw [Block.parts_conditional] at hfirst hsecond hnone
    cases hsplit : splitElse? elseTag body with
    | none =>
      rw [hsplit] at hfirst hnone
      obtain rfl := hnone rfl
      exact .conditionalThen hopener hfirst
    | some parts =>
      obtain ⟨before, after⟩ := parts
      rw [hsplit] at hfirst hsecond
      have hspells := Spells.conditional hopener hfirst hsecond
      simp only [Option.getD_some] at hspells
      rw [Block.source, eq_of_splitElse? hsplit]
      simpa only [List.append_assoc, BlockKind.node] using hspells
  | negated => exact .negated hopener hfirst
  | each => exact .each hopener hfirst
  | within => exact .within hopener hfirst

/-- A text without comments is a spelling of the nodes that are read from it. -/
theorem spellsAll_parseBare (s : Text) : SpellsAll (parseBare s).nodes s := by
  induction s using reading_induction with
  | nil =>
    rw [parseBare_nil]
    exact .nil
  | plain c r hread ih =>
    rw [parseBare_plain hread]
    exact spellsAll_addText ih [c]
  | inline s node rest hread ih =>
    obtain ⟨tag, htag, rfl⟩ := spellsInline_of_read hread
    rw [parseBare_inline hread]
    exact .cons htag.spells ih
  | unmatched s kind opener rest hread ih =>
    obtain ⟨path, -, -, rfl⟩ := spellsOpener_of_read_unmatched hread
    rw [parseBare_unmatched hread]
    exact spellsAll_addText ih opener
  | block s b hread hfirst hsecond hrest =>
    have hopener := (Block.complete_of_read hread).opener
    have hnone : b.parts.2 = [] → (parseBare b.parts.2).nodes = [] := by
      intro hempty
      rw [hempty, parseBare_nil]
      rfl
    rw [parseBare_block hread, Directive.eq_of_read_block hread]
    exact .cons (spells_block hopener hfirst hsecond hnone) hrest

/-! ### The normal form -/

/-- A text that is left over when tags are read: not empty, and without a complete tag. -/
def IsResidue (s : Text) : Prop := s ≠ [] ∧ ∀ node tag, SpellsInline node tag → ¬ tag <:+: s

/-- The text that nodes begin with. -/
def leadingText : List Node → Text
  | .text s :: _ => s
  | _ => []

/-- What stands behind the text that nodes begin with. -/
def behindText : List Node → List Node
  | .text _ :: rest => rest
  | nodes => nodes

/-- Text before nodes is one text with the text that they begin with. -/
theorem nodes_addText {s : Text} (hs : s ≠ []) (p : Parsed) :
    (p.addText s).nodes = .text (s ++ leadingText p.nodes) :: behindText p.nodes := by
  obtain ⟨c, s, rfl⟩ := List.exists_cons_of_ne_nil hs
  obtain ⟨nodes, diagnostics⟩ := p
  cases nodes with
  | nil => simp [Parsed.addText, leadingText, behindText]
  | cons node rest => cases node <;> simp [Parsed.addText, leadingText, behindText]

/-- The text that nodes begin with is the beginning of each of their spellings. -/
theorem leadingText_isPrefix {nodes : List Node} {s : Text} (h : SpellsAll nodes s) :
    leadingText nodes <+: s := by
  cases h with
  | nil => exact List.prefix_rfl
  | cons hnode _ =>
    cases hnode with
    | text => exact List.prefix_append ..
    | _ => exact List.nil_prefix

/-- The text that nodes in normal form begin with contains no complete tag. -/
theorem not_infix_leadingText {path : Text → Prop} {nodes : List Node}
    (hwell : WellFormedAll IsResidue path nodes) {node : Node} {tag : Text}
    (htag : SpellsInline node tag) : ¬ tag <:+: leadingText nodes := by
  have hempty : ¬ tag <:+: [] := fun h => htag.ne_nil (List.infix_nil.mp h)
  cases nodes with
  | nil => exact hempty
  | cons first rest =>
    cases first with
    | text s => exact hwell.1.2 node tag htag
    | _ => exact hempty

/-- Text before well-formed nodes keeps them well formed, if the text that they then begin with is
as texts should be. -/
theorem wellFormedAll_addText {text path : Text → Prop} {p : Parsed} {s : Text} (hs : s ≠ [])
    (hwell : WellFormedAll text path p.nodes) (htext : text (s ++ leadingText p.nodes)) :
    WellFormedAll text path (p.addText s).nodes := by
  obtain ⟨nodes, diagnostics⟩ := p
  by_cases hbegins : beginsWithText nodes
  · cases nodes with
    | nil => contradiction
    | cons node rest =>
      cases node with
      | text t =>
        obtain ⟨c, s, rfl⟩ := List.exists_cons_of_ne_nil hs
        exact ⟨htext, hwell.2⟩
      | _ => contradiction
  · have hlead : leadingText nodes = [] := by
      cases nodes with
      | nil => rfl
      | cons node rest => cases node <;> first | rfl | exact absurd rfl hbegins
    rw [addText_of_not_beginsWithText hs hbegins]
    rw [hlead, List.append_nil] at htext
    exact ⟨htext, fun h => hbegins h.2, hwell⟩

/-- The node of a block is well formed, if its path and its bodies are. -/
theorem wellFormed_node {text path : Text → Prop} {p : Text} (kind : BlockKind)
    {first second : List Node} (hpath : path p) (hfirst : WellFormedAll text path first)
    (hsecond : WellFormedAll text path second) :
    (kind.node p first second).WellFormed text path := by
  cases kind with
  | conditional => exact ⟨hpath, hfirst, hsecond⟩
  | _ => exact ⟨hpath, hfirst⟩

/-- What is read from a text is in normal form. -/
theorem wellFormedAll_parseBare (s : Text) :
    WellFormedAll IsResidue IsPath (parseBare s).nodes := by
  induction s using reading_induction with
  | nil =>
    rw [parseBare_nil]
    trivial
  | plain c r hread ih =>
    rw [parseBare_plain hread]
    refine wellFormedAll_addText (by simp) ih ⟨by simp, fun node tag htag hinfix => ?_⟩
    rcases List.infix_cons_iff.mp hinfix with hhere | hlater
    · have hbegin : tag <+: c :: r :=
        hhere.trans ((List.prefix_cons_inj c).mpr (leadingText_isPrefix (spellsAll_parseBare r)))
      obtain ⟨rest, hrest⟩ := hbegin
      have hread := readInline?_of_read_plain hread
      rw [← hrest, readInline?_append htag] at hread
      contradiction
    · exact not_infix_leadingText ih htag hlater
  | inline s node rest hread ih =>
    obtain ⟨tag, htag, -⟩ := spellsInline_of_read hread
    rw [parseBare_inline hread]
    cases htag with
    | escaped hpath _ => exact ⟨hpath, fun h => Bool.false_ne_true h.1, ih⟩
    | raw hpath _ => exact ⟨hpath, fun h => Bool.false_ne_true h.1, ih⟩
    | partialRef hname _ => exact ⟨hname, fun h => Bool.false_ne_true h.1, ih⟩
  | unmatched s kind opener rest hread ih =>
    obtain ⟨path, hpath, hopener, -⟩ := spellsOpener_of_read_unmatched hread
    rw [parseBare_unmatched hread]
    have hne : opener ++ leadingText (parseBare rest).nodes ≠ [] :=
      List.append_ne_nil_of_left_ne_nil hopener.ne_nil _
    refine wellFormedAll_addText hopener.ne_nil ih ⟨hne, fun node tag htag hinfix => ?_⟩
    obtain ⟨c, t, rfl, hc⟩ := htag.exists_inside
    have havoids := avoids_opener t hopener hpath hc
    exact not_infix_leadingText ih htag (havoids.infix_of_infix_append hinfix)
  | block s b hread hfirst hsecond hrest =>
    have hpath := (Block.complete_of_read hread).path
    rw [parseBare_block hread]
    refine ⟨wellFormed_node b.kind hpath hfirst hsecond, fun h => ?_, hrest⟩
    obtain ⟨kind, _⟩ := b
    cases kind <;> exact Bool.false_ne_true h.1

/-- **Reading loses nothing.** A text without comments is a spelling of the tree that is read from
it, and this tree is in normal form at every depth. -/
theorem parse_lossless {s : Text} (hcomment : ¬ commentOpen <:+: s) :
    SpellsAll (parse s).nodes s ∧ WellFormedAll IsResidue IsPath (parse s).nodes := by
  rw [parse, stripComments_of_not_infix hcomment]
  exact ⟨spellsAll_parseBare s, wellFormedAll_parseBare s⟩

/-- A stray closing tag, a loop that is not closed and a tag that is half written are kept. -/
theorem parse_lossless_of_malformed :
    let s := BlockKind.negated.closeTag ++ BlockKind.each.plainOpener ['x'] ++ openBraces ++ ['y']
    ¬ commentOpen <:+: s ∧ SpellsAll (parse s).nodes s ∧
      WellFormedAll IsResidue IsPath (parse s).nodes := by
  intro s
  have hcomment : ¬ commentOpen <:+: s := by decide
  exact ⟨hcomment, parse_lossless hcomment⟩

end Stencil.Template
