import Stencil.Proofs.Template.Comments

/-!
# What reading reports

An opening tag without its closing tag stays as text and is reported. So the reports of a template
can be told from its tree: they are the opening tags that stand in its texts, in the order in which
they stand there. Each of them is reported once, as it is written, and nothing else is.
-/

namespace Stencil.Template

/-! ### Opening tags in texts -/

/-- The opening tags at the front of a text, by their kinds and as they are written. -/
def openersAt (s : Text) : List (BlockKind × Text) :=
  BlockKind.all.filterMap fun kind =>
    (readOpener? kind s).map fun (_, rest) => (kind, s.take (s.length - rest.length))

/-- The opening tags that stand in a text, at all of its places. -/
def openersIn : Text → List (BlockKind × Text)
  | [] => []
  | c :: r => openersAt (c :: r) ++ openersIn r

/-- The opening tags that stand in the texts of nodes, at any depth. -/
def openersAll (nodes : List Node) : List (BlockKind × Text) := (textsAll nodes).flatMap openersIn

/-- Where no opening tag is read, none stands. -/
theorem openersAt_eq_nil {s : Text} (h : ∀ kind, readOpener? kind s = none) :
    openersAt s = [] := by
  rw [openersAt, List.filterMap_eq_nil_iff]
  intro kind _
  rw [h kind, Option.map_none]

/-- The opening tag of a kind is the one that stands at its front. -/
theorem openersAt_opener {kind : BlockKind} {path opener : Text}
    (hopener : SpellsOpener kind path opener) (hpath : IsPath path) (rest : Text) :
    openersAt (opener ++ rest) = [(kind, opener)] := by
  have hkind := readOpener?_append hopener hpath rest
  have hother (other : BlockKind) (hne : other ≠ kind) :=
    readOpener?_opener_of_ne hopener hpath hne rest
  unfold openersAt
  cases kind <;> simp [BlockKind.all, hkind, hother]

/-- Text in which no mark of blocks begins has no opening tags. -/
theorem openersIn_append_of_avoids {s : Text} (hs : Text.Avoids blockMark s) (t : Text) :
    openersIn (s ++ t) = openersIn t := by
  induction s with
  | nil => rfl
  | cons c s ih =>
    rw [List.cons_append, openersIn, openersAt_eq_nil (readOpener?_eq_none (hs.1 t)), ih hs.2,
      List.nil_append]

/-- The opening tags of a text that begins with one. -/
theorem openersIn_opener {kind : BlockKind} {path opener : Text}
    (hopener : SpellsOpener kind path opener) (hpath : IsPath path) (t : Text) :
    openersIn (opener ++ t) = (kind, opener) :: openersIn t := by
  have hfront := openersAt_opener hopener hpath t
  obtain ⟨tail, rfl, htail⟩ := hopener.exists_tail hpath
  rw [List.cons_append] at hfront ⊢
  rw [openersIn, hfront, openersIn_append_of_avoids (htail.of_prefix ⟨['#'], rfl⟩)]
  rfl

/-! ### Reading -/

/-- A node before nodes adds the opening tags in its texts. -/
theorem openersAll_cons (node : Node) (rest : List Node) :
    openersAll (node :: rest) = node.texts.flatMap openersIn ++ openersAll rest := by
  simp [openersAll, textsAll]

/-- The opening tags in the texts of nodes are those of the text that the nodes begin with, and
those behind it. -/
theorem openersAll_eq_append (nodes : List Node) :
    openersAll nodes = openersIn (leadingText nodes) ++ openersAll (behindText nodes) := by
  cases nodes with
  | nil => rfl
  | cons node rest =>
    cases node with
    | text s => simp [openersAll_cons, Node.texts, leadingText, behindText]
    | _ => rfl

/-- Text before nodes adds the opening tags that begin in it to those in the texts. -/
theorem openersAll_addText {p : Parsed} {s : Text} (hs : s ≠ []) {found : List (BlockKind × Text)}
    (h : openersIn (s ++ leadingText p.nodes) = found ++ openersIn (leadingText p.nodes)) :
    openersAll (p.addText s).nodes = found ++ openersAll p.nodes := by
  calc openersAll (p.addText s).nodes
      = openersIn (s ++ leadingText p.nodes) ++ openersAll (behindText p.nodes) := by
        simp [nodes_addText hs, openersAll_cons, Node.texts]
    _ = found ++ (openersIn (leadingText p.nodes) ++ openersAll (behindText p.nodes)) := by
        rw [h, List.append_assoc]
    _ = found ++ openersAll p.nodes := by rw [← openersAll_eq_append]

/-- The opening tags in the texts of a block are those of its bodies, one after the other. -/
theorem openersIn_texts_node (b : Block) :
    (b.kind.node b.path (parseBare b.parts.1).nodes (parseBare b.parts.2).nodes).texts.flatMap
        openersIn =
      openersAll (parseBare b.parts.1).nodes ++ openersAll (parseBare b.parts.2).nodes := by
  obtain ⟨kind, path, opener, body, rest⟩ := b
  cases kind <;>
    simp [openersAll, BlockKind.node, Node.texts, Block.parts, Parsed.empty, textsAll]

/-- What is reported for a text are the opening tags in the texts of what is read from it. -/
theorem diagnostics_parseBare (s : Text) :
    (parseBare s).diagnostics =
      (openersAll (parseBare s).nodes).map fun (kind, opener) => .unmatchedBlock kind opener := by
  induction s using reading_induction with
  | nil =>
    rw [parseBare_nil]
    rfl
  | plain c r hread ih =>
    -- an opening tag at the front of the text would be one at the front of what is read
    have hlead : c :: leadingText (parseBare r).nodes <+: c :: r :=
      (List.prefix_cons_inj c).mpr (leadingText_isPrefix (spellsAll_parseBare r))
    have hnone (kind : BlockKind) :
        readOpener? kind (c :: leadingText (parseBare r).nodes) = none := by
      rw [Option.eq_none_iff_forall_ne_some]
      rintro ⟨path, rest⟩ hopener
      obtain ⟨hpath, opener, hspells, hfront⟩ := spellsOpener_of_readOpener? hopener
      rw [hfront] at hlead
      exact (read_plain_iff.mp hread).1 kind path opener hpath hspells
        ((List.prefix_append opener rest).trans hlead)
    have hopeners : openersIn ([c] ++ leadingText (parseBare r).nodes) =
        [] ++ openersIn (leadingText (parseBare r).nodes) := by
      rw [List.singleton_append, openersIn, openersAt_eq_nil hnone]
    simp [parseBare_plain hread, ih, openersAll_addText (List.cons_ne_nil c []) hopeners]
  | inline s node rest hread ih =>
    obtain ⟨tag, htag, -⟩ := spellsInline_of_read hread
    have htexts : node.texts = [] := by cases htag <;> rfl
    rw [parseBare_inline hread]
    simpa [Parsed.addNode, openersAll_cons, htexts] using ih
  | unmatched s kind opener rest hread ih =>
    obtain ⟨path, hpath, hopener, -⟩ := spellsOpener_of_read_unmatched hread
    have hopeners : openersAll ((parseBare rest).addText opener).nodes =
        [(kind, opener)] ++ openersAll (parseBare rest).nodes :=
      openersAll_addText hopener.ne_nil (openersIn_opener hopener hpath _)
    rw [parseBare_unmatched hread]
    simp only [Parsed.report, diagnostics_addText, hopeners]
    simpa using ih
  | block s b hread hfirst hsecond hrest =>
    rw [parseBare_block hread]
    simp only [Parsed.report, Parsed.addNode, openersAll_cons, openersIn_texts_node,
      List.map_append, hfirst, hsecond, hrest]

/-- **Reports are exact.** What is reported when a template is read are the opening tags that stand
in the texts of the tree, one report for each, in order, with its kind and as it is written. -/
theorem parse_reports_openers (s : Text) :
    (parse s).diagnostics.map Diagnostic.detail = (openersAll (parse s).nodes).map Prod.snd ∧
      (parse s).diagnostics =
        (openersAll (parse s).nodes).map fun (kind, opener) => .unmatchedBlock kind opener := by
  have hreports := diagnostics_parseBare (stripComments false s)
  rw [← parse] at hreports
  refine ⟨?_, hreports⟩
  rw [hreports, List.map_map]
  rfl

end Stencil.Template
