import Stencil.Template.Parse
import Stencil.Proofs.Template.Nesting

/-!
# Reading step by step

What one step of reading a template does, by what stands at the front of the text, and the induction
that follows the steps. A block is read by reading the parts of its body; the four kinds of blocks
differ only in how the body is parted and in the node that is made.
-/

namespace Stencil.Template

/-- The node of a block of a kind. Only a conditional has a second body. -/
def BlockKind.node (kind : BlockKind) (path : Text) (first second : List Node) : Node :=
  match kind with
  | conditional => .conditional path first second
  | negated => .negated path first
  | each => .each path first
  | within => .within path first

/-- The two parts of the body of a block; the second one is empty unless the block is a conditional
with a tag between its bodies. -/
def Block.parts (b : Block) : Text × Text :=
  match b.kind with
  | .conditional => (splitElse? elseTag b.body).getD (b.body, [])
  | _ => (b.body, [])

/-- The body of a conditional is parted at the tag between its bodies, if there is one. -/
theorem Block.parts_conditional (path opener body rest : Text) :
    parts ⟨.conditional, path, opener, body, rest⟩ =
      (splitElse? elseTag body).getD (body, []) := rfl

/-- A body is its first part, or both parts with the tag between them. -/
theorem Block.body_cases (b : Block) :
    b.parts.2 = [] ∧ b.body = b.parts.1 ∨ b.body = b.parts.1 ++ elseTag ++ b.parts.2 := by
  obtain ⟨kind, path, opener, body, rest⟩ := b
  cases kind with
  | conditional =>
    rw [parts_conditional]
    cases hsplit : splitElse? elseTag body with
    | none => exact Or.inl ⟨rfl, rfl⟩
    | some parts => exact Or.inr (eq_of_splitElse? hsplit)
  | _ => exact Or.inl ⟨rfl, rfl⟩

/-- Neither part of a body is longer than the body. -/
theorem Block.length_parts_le (b : Block) :
    b.parts.1.length ≤ b.body.length ∧ b.parts.2.length ≤ b.body.length := by
  rcases b.body_cases with ⟨hnone, hbody⟩ | hbody
  · rw [hnone, ← hbody]
    exact ⟨le_rfl, Nat.zero_le _⟩
  · have hlength := congrArg List.length hbody
    simp only [List.length_append] at hlength
    omega

/-! ### The steps -/

/-- Nothing is read from a text without characters. -/
@[simp] theorem parseBare_nil : parseBare [] = .empty := by
  rw [parseBare]

/-- A character at which no tag begins is text. -/
theorem parseBare_plain {c : Char} {r : Text} (h : Directive.read (c :: r) = .plain) :
    parseBare (c :: r) = (parseBare r).addText [c] := by
  rw [parseBare]
  split <;> simp_all

/-- A tag without a body is a node. -/
theorem parseBare_inline {s rest : Text} {node : Node}
    (h : Directive.read s = .inline node rest) :
    parseBare s = (parseBare rest).addNode node := by
  cases s with
  | nil => cases h
  | cons c r =>
    rw [parseBare]
    split <;> simp_all

/-- An opening tag without its closing tag is text, and is reported. -/
theorem parseBare_unmatched {s opener rest : Text} {kind : BlockKind}
    (h : Directive.read s = .unmatched kind opener rest) :
    parseBare s = ((parseBare rest).addText opener).report [.unmatchedBlock kind opener] := by
  cases s with
  | nil => cases h
  | cons c r =>
    rw [parseBare]
    split <;> simp_all

/-- A block that was read is the beginning of the text. -/
theorem Directive.eq_of_read_block {s : Text} {b : Block} (h : read s = .block b) :
    s = b.source ++ b.rest := by
  unfold read at h
  split at h
  · next hb =>
    cases h
    exact eq_of_readAnyBlock? hb
  · repeat' split at h
    all_goals contradiction

/-- A block is a node with what the parts of its body give. -/
theorem parseBare_block {s : Text} {b : Block} (h : Directive.read s = .block b) :
    parseBare s = ((parseBare b.rest).addNode
      (b.kind.node b.path (parseBare b.parts.1).nodes (parseBare b.parts.2).nodes)).report
        ((parseBare b.parts.1).diagnostics ++ (parseBare b.parts.2).diagnostics) := by
  cases s with
  | nil => cases h
  | cons c r =>
    rw [parseBare]
    split
    · simp_all
    · simp_all
    · simp_all
    · next b' hb =>
      rw [h] at hb
      cases hb
      split
      · next hkind =>
        split
        · next before after hsplit => simp [Block.parts, BlockKind.node, hkind, hsplit]
        · next hsplit =>
          simp [Block.parts, BlockKind.node, hkind, hsplit, Parsed.empty]
      all_goals
        next hkind => simp [Block.parts, BlockKind.node, hkind, Parsed.empty]

/-- Induction along the steps of reading: over the rest of the text behind what was read, and for a
block over the parts of its body. -/
theorem reading_induction {motive : Text → Prop} (nil : motive [])
    (plain : ∀ c r, Directive.read (c :: r) = .plain → motive r → motive (c :: r))
    (inline : ∀ s node rest, Directive.read s = .inline node rest → motive rest → motive s)
    (unmatched : ∀ s kind opener rest, Directive.read s = .unmatched kind opener rest →
      motive rest → motive s)
    (block : ∀ s b, Directive.read s = .block b → motive b.parts.1 → motive b.parts.2 →
      motive b.rest → motive s) (s : Text) : motive s := by
  induction hlength : s.length using Nat.strong_induction_on generalizing s with
  | _ n ih =>
    subst hlength
    have shorter {t : Text} (ht : t.length < s.length) : motive t := ih t.length ht t rfl
    cases s with
    | nil => exact nil
    | cons c r =>
      cases hread : Directive.read (c :: r) with
      | plain => exact plain c r hread (shorter (by simp))
      | inline node rest =>
        exact inline _ node rest hread (shorter (Directive.length_read_inline hread))
      | unmatched kind opener rest =>
        exact unmatched _ kind opener rest hread (shorter (Directive.length_read_unmatched hread))
      | block b =>
        have hlength := Directive.length_read_block hread
        have hbody := b.length_body_lt
        have hparts := b.length_parts_le
        exact block _ b hread (shorter (by omega)) (shorter (by omega)) (shorter (by omega))

/-! ### Text -/

/-- Text before nothing changes nothing. -/
@[simp] theorem addText_nil (p : Parsed) : p.addText [] = p := rfl

/-- Text before nodes reports nothing. -/
@[simp] theorem diagnostics_addText (s : Text) (p : Parsed) :
    (p.addText s).diagnostics = p.diagnostics := by
  unfold Parsed.addText
  split <;> rfl

/-- Text before text is the two texts together. -/
@[simp] theorem addText_addText (s t : Text) (p : Parsed) :
    (p.addText t).addText s = p.addText (s ++ t) := by
  cases s with
  | nil => rfl
  | cons c s =>
    cases t with
    | nil => simp
    | cons d t =>
      obtain ⟨nodes, diagnostics⟩ := p
      cases nodes with
      | nil => simp [Parsed.addText]
      | cons node rest => cases node <;> simp [Parsed.addText]

/-- Where no mark of blocks stands, a tag without a body or a character is read. -/
theorem read_of_not_blockMark {s : Text} (h : ¬ blockMark <+: s) :
    Directive.read s =
      match readInline? s with
      | some (node, rest) => .inline node rest
      | none => .plain := by
  have hopener : readAnyOpener? s = none := by
    rw [readAnyOpener?, List.findSome?_eq_none_iff]
    intro kind _
    rw [readOpener?_eq_none h, Option.map_none]
  unfold Directive.read
  cases readInline? s <;> simp only [readAnyBlock?_eq_none h, hopener]

/-- Where no two braces open, no tag begins. -/
theorem read_plain {s : Text} (h : ¬ openBraces <+: s) : Directive.read s = .plain := by
  have hwider {opening : Text} (hopening : openBraces <+: opening) : ¬ opening <+: s :=
    fun hs => h (hopening.trans hs)
  have hpartial : readPartialTag? s = none := readBetween?_eq_none (hwider ⟨['>'], rfl⟩)
  have hraw : readRawTag? s = none := readBetween?_eq_none (hwider ⟨['\x7b'], rfl⟩)
  have hescaped : readEscapedTag? s = none := readBetween?_eq_none h
  rw [read_of_not_blockMark (hwider ⟨['#'], rfl⟩)]
  simp only [readInline?, hpartial, hraw, hescaped, Option.map_none]

/-- Text in which no braces open is read as it stands. -/
theorem parseBare_append_of_avoids {s : Text} (hs : Text.Avoids openBraces s) (r : Text) :
    parseBare (s ++ r) = (parseBare r).addText s := by
  induction s with
  | nil => simp
  | cons c s ih =>
    have hplain : Directive.read (c :: (s ++ r)) = .plain := read_plain (hs.1 r)
    simp [parseBare_plain hplain, ih hs.2]

/-- Reading a text reports unmatched blocks only. -/
theorem exists_unmatchedBlock_of_mem_parseBare {s : Text} {d : Diagnostic}
    (h : d ∈ (parseBare s).diagnostics) : ∃ kind opener, d = .unmatchedBlock kind opener := by
  induction s using reading_induction with
  | nil =>
    rw [parseBare_nil] at h
    exact absurd h List.not_mem_nil
  | plain c r hread ih =>
    rw [parseBare_plain hread, diagnostics_addText] at h
    exact ih h
  | inline s node rest hread ih =>
    rw [parseBare_inline hread] at h
    exact ih h
  | unmatched s kind opener rest hread ih =>
    rw [parseBare_unmatched hread] at h
    rcases List.mem_cons.mp h with rfl | h
    · exact ⟨kind, opener, rfl⟩
    · rw [diagnostics_addText] at h
      exact ih h
  | block s b hread hfirst hsecond hrest =>
    rw [parseBare_block hread] at h
    rcases List.mem_append.mp h with h | h
    · rcases List.mem_append.mp h with h | h
      · exact hfirst h
      · exact hsecond h
    · exact hrest h

/-! ### Tags and blocks -/

/-- A complete tag without a body is read back in front of every text. -/
theorem readInline?_append {node : Node} {tag : Text} (h : SpellsInline node tag) (r : Text) :
    readInline? (tag ++ r) = some (node, r) := by
  cases h with
  | partialRef hname h =>
    obtain ⟨c, t, hfirst, hc⟩ := hname.exists_cons
    have hread : readPartialTag? (tag ++ r) = some (_, r) :=
      readBetween?_append h ⟨c, t, hfirst, hc⟩ (readName?_append hname) r
    rw [readInline?, hread]
  | raw hpath h =>
    obtain ⟨c, t, hfirst, hc, -⟩ := hpath.exists_cons
    have hread : readRawTag? (tag ++ r) = some (_, r) :=
      readBetween?_append h ⟨c, t, hfirst, hc⟩ (readPath?_append hpath) r
    have hpartial : readPartialTag? (tag ++ r) = none := by
      obtain ⟨d, u, rfl, -⟩ := h.exists_inside hpath (by decide)
      exact readBetween?_eq_none (by simp [openBraces, List.cons_prefix_cons])
    rw [readInline?, hpartial, hread]
  | escaped hpath h =>
    have hread := readEscapedTag?_append h hpath r
    obtain ⟨d, u, rfl, hd, -⟩ := h.exists_inside hpath (by decide)
    have hother (sign : Char) (hsign : sign ∈ signs) :
        ¬ openBraces ++ [sign] <+: openBraces ++ d :: u ++ r := by
      intro hbegin
      rw [List.append_assoc, List.prefix_append_right_inj] at hbegin
      exact hd ((List.cons_prefix_cons.mp hbegin).1 ▸ hsign)
    have hpartial : readPartialTag? (openBraces ++ d :: u ++ r) = none :=
      readBetween?_eq_none (hother '>' (by decide))
    have hraw : readRawTag? (openBraces ++ d :: u ++ r) = none :=
      readBetween?_eq_none (hother '\x7b' (by decide))
    rw [readInline?, hpartial, hraw, hread]
    rfl

/-- A complete tag without a body is read as its node. -/
theorem parseBare_append_inline {node : Node} {tag : Text} (h : SpellsInline node tag) (r : Text) :
    parseBare (tag ++ r) = (parseBare r).addNode node := by
  apply parseBare_inline
  have hmark : ¬ blockMark <+: tag ++ r := by
    have hblock : Text.Avoids (openBraces ++ ['#']) tag := h.avoids (by decide)
    obtain ⟨c, t, rfl⟩ := List.exists_cons_of_ne_nil h.ne_nil
    exact hblock.1 r
  rw [read_of_not_blockMark hmark, readInline?_append h]

/-- A complete block is read as a block, whatever follows it. -/
theorem read_append_block {kind : BlockKind} {path opener body : Text}
    (hopener : SpellsOpener kind path opener) (hpath : IsPath path) (hbody : ClosesAt kind 0 body)
    (r : Text) : Directive.read (opener ++ body ++ kind.closeTag ++ r) =
      .block ⟨kind, path, opener, body, r⟩ := by
  rw [Directive.read, readAnyBlock?_append hopener hpath hbody]

/-! ### What was read -/

/-- What stands at the front of a text was given by the reader for it; an opening tag is unmatched
only where no block stands, and a character is read as text only where no tag stands. -/
theorem read_spec (s : Text) :
    match Directive.read s with
    | .block b => readAnyBlock? s = some b
    | .unmatched kind opener rest =>
      readAnyBlock? s = none ∧ readAnyOpener? s = some (kind, rest) ∧
        opener = s.take (s.length - rest.length)
    | .inline node rest => readInline? s = some (node, rest)
    | .plain => readAnyOpener? s = none ∧ readInline? s = none := by
  unfold Directive.read
  cases hblock : readAnyBlock? s with
  | some b => rfl
  | none =>
    rcases hopener : readAnyOpener? s with _ | ⟨kind, rest⟩
    · rcases hinline : readInline? s with _ | ⟨node, rest⟩
      · exact ⟨rfl, rfl⟩
      · rfl
    · exact ⟨rfl, rfl, rfl⟩

/-- Where a character is read as text, no tag without a body stands. -/
theorem readInline?_of_read_plain {s : Text} (h : Directive.read s = .plain) :
    readInline? s = none := by
  have hread := read_spec s
  rw [h] at hread
  exact hread.2

/-- Where a character is read as text, no opening tag stands. -/
theorem readOpener?_of_read_plain {s : Text} (h : Directive.read s = .plain) (kind : BlockKind) :
    readOpener? kind s = none := by
  have hread := read_spec s
  rw [h] at hread
  have hkind := List.findSome?_eq_none_iff.mp hread.1 kind (by cases kind <;> decide)
  rwa [Option.map_eq_none_iff] at hkind

/-- A tag that was read stands at the front of the text. -/
theorem spellsInline_of_read {s rest : Text} {node : Node}
    (h : Directive.read s = .inline node rest) :
    ∃ tag, SpellsInline node tag ∧ s = tag ++ rest := by
  have hread := read_spec s
  rw [h] at hread
  exact spellsInline_of_readInline? hread

/-- An unmatched opening tag stands at the front of the text. -/
theorem spellsOpener_of_read_unmatched {s opener rest : Text} {kind : BlockKind}
    (h : Directive.read s = .unmatched kind opener rest) :
    ∃ path, IsPath path ∧ SpellsOpener kind path opener ∧ s = opener ++ rest := by
  have hread := read_spec s
  rw [h] at hread
  obtain ⟨-, hany, rfl⟩ := hread
  obtain ⟨kind', -, hkind⟩ := List.exists_of_findSome?_eq_some hany
  simp only [Option.map_eq_some_iff, Prod.exists, Prod.mk.injEq] at hkind
  obtain ⟨path, rest', hopener, rfl, rfl⟩ := hkind
  obtain ⟨hpath, opener, hspells, rfl⟩ := spellsOpener_of_readOpener? hopener
  have htake : (opener ++ rest').take ((opener ++ rest').length - rest'.length) = opener := by
    rw [List.length_append, Nat.add_sub_cancel, List.take_left]
  rw [htake]
  exact ⟨path, hpath, hspells, rfl⟩

/-- An opening tag is unmatched only where no block stands. -/
theorem readAnyBlock?_of_read_unmatched {s opener rest : Text} {kind : BlockKind}
    (h : Directive.read s = .unmatched kind opener rest) : readAnyBlock? s = none := by
  have hread := read_spec s
  rw [h] at hread
  exact hread.1

/-- A block that was read is complete. -/
theorem Block.complete_of_read {s : Text} {b : Block} (h : Directive.read s = .block b) :
    b.Complete := by
  have hread := read_spec s
  rw [h] at hread
  exact (readAnyBlock?_eq_some_iff.mp hread).1

/-- A character is read as text exactly where neither an opening tag nor a tag without a body
stands. -/
theorem read_plain_iff {s : Text} :
    Directive.read s = .plain ↔
      (∀ kind path opener, IsPath path → SpellsOpener kind path opener → ¬ opener <+: s) ∧
        ∀ node tag, SpellsInline node tag → ¬ tag <+: s := by
  constructor
  · intro h
    constructor
    · rintro kind path opener hpath hopener ⟨rest, rfl⟩
      have hnone := readOpener?_of_read_plain h kind
      rw [readOpener?_append hopener hpath] at hnone
      contradiction
    · rintro node tag htag ⟨rest, rfl⟩
      have hnone := readInline?_of_read_plain h
      rw [readInline?_append htag] at hnone
      contradiction
  · rintro ⟨hopener, hinline⟩
    cases hread : Directive.read s with
    | plain => rfl
    | inline node rest =>
      obtain ⟨tag, htag, hfront⟩ := spellsInline_of_read hread
      exact absurd ⟨rest, hfront.symm⟩ (hinline node tag htag)
    | unmatched kind opener rest =>
      obtain ⟨path, hpath, hspells, hfront⟩ := spellsOpener_of_read_unmatched hread
      exact absurd ⟨rest, hfront.symm⟩ (hopener kind path opener hpath hspells)
    | block b =>
      have hcomplete := Block.complete_of_read hread
      have hfront := Directive.eq_of_read_block hread
      rw [Block.source, List.append_assoc, List.append_assoc] at hfront
      exact absurd ⟨_, hfront.symm⟩ (hopener _ _ _ hcomplete.path hcomplete.opener)

/-- Where a character is read as text, no block stands. -/
theorem readAnyBlock?_of_read_plain {s : Text} (h : Directive.read s = .plain) :
    readAnyBlock? s = none := by
  rw [Option.eq_none_iff_forall_ne_some]
  intro b hblock
  rw [Directive.read, hblock] at h
  contradiction

/-- An opening tag that begins no block is unmatched. -/
theorem read_append_opener {kind : BlockKind} {path opener rest : Text} (hpath : IsPath path)
    (hopener : SpellsOpener kind path opener) (hblock : readAnyBlock? (opener ++ rest) = none) :
    Directive.read (opener ++ rest) = .unmatched kind opener rest := by
  have hany : readAnyOpener? (opener ++ rest) = some (kind, rest) := by
    have hread : (readOpener? kind (opener ++ rest)).map (fun parts => (kind, parts.2)) =
        some (kind, rest) := by rw [readOpener?_append hopener hpath, Option.map_some]
    refine findSome?_all hread fun other hother => ?_
    rw [readOpener?_opener_of_ne hopener hpath hother, Option.map_none]
  rw [Directive.read, hblock, hany]
  simp

end Stencil.Template
