import Stencil.Proofs.Template.BlockTags

/-!
# The places of the blocks of a kind

Every opening tag of a kind is found once, in the order of the text, and each of them looks for its
closing tag by itself. Still the blocks that are found are nested: two of them are apart, or one of
them stands in the body of the other. A scan that goes on inside of a block is some levels down when
it comes to a further opening tag, and it has to come up to that level again before it can close the
block, so the inner tag has its closing tag there. That holds also where an incomplete opening tag
takes the scan down a level.
-/

namespace Stencil.Template

/-- Where what is found begins. -/
def Found.start : Found → Int
  | block span => span.start
  | unmatched offset => offset

/-- A complete opening tag of a kind stands at an offset of a text. -/
def OpensAt (kind : BlockKind) (s : Text) (offset : Nat) : Prop :=
  ∃ path opener, IsPath path ∧ SpellsOpener kind path opener ∧ opener <+: s.drop offset

/-- The places in a span are in order, and the tags of a block of the kind stand at them. -/
structure Span.IsBlockIn (a : Span) (kind : BlockKind) (s : Text) : Prop where
  kind_eq : a.kind = kind
  path : IsPath a.path
  start_nonneg : 0 ≤ a.start
  start_lt : a.start < a.bodyStart
  bodyStart_le : a.bodyStart ≤ a.bodyEnd
  bodyEnd_lt : a.bodyEnd < a.stop
  stop_le : a.stop ≤ s.length
  opener : SpellsOpener kind a.path (s.extract a.start.toNat a.bodyStart)
  closing : s.extract a.bodyEnd a.stop = kind.closeTag

/-- A block ends before another one begins. -/
def Span.Before (a b : Span) : Prop := a.stop ≤ b.start

/-- A block stands in the body of another one. -/
def Span.Inside (a b : Span) : Prop := b.bodyStart ≤ a.start ∧ a.stop ≤ b.bodyEnd

/-! ### Tags inside of a block -/

section Tags

variable {kind : BlockKind} {depth : Nat}

/-- Tags among which a scan does not stop take it to some depth. -/
theorem exists_depth_of_closes {first rest : List BlockTag}
    (h : closes kind depth (first ++ rest) = false) :
    ∃ inner, ∀ more, closes kind depth (first ++ more) = closes kind inner more := by
  induction first generalizing depth with
  | nil => exact ⟨depth, fun more => rfl⟩
  | cons tag first ih =>
    cases tag with
    | opening other complete =>
      simp only [List.cons_append, closes] at h ⊢
      split at h
      · next hkind => simpa only [hkind, if_true] using ih h
      · next hkind => simpa only [hkind, if_false] using ih h
    | closing other =>
      cases depth <;> simp only [List.cons_append, closes] at h ⊢ <;> split at h
      · contradiction
      · next hkind => simpa only [hkind, if_false] using ih h
      · next hkind => simpa only [hkind, if_true] using ih h
      · next hkind => simpa only [hkind, if_false] using ih h

/-- A scan that needs one closing tag more, behind some tags, stops among them if it begins farther
out. -/
theorem closes_of_le {tags : List BlockTag} {outer : Nat}
    (h : closes kind (depth + 1) (tags ++ [.closing kind])) (hle : outer ≤ depth) :
    closes kind outer tags := by
  induction tags generalizing depth outer with
  | nil => simp [closes] at h
  | cons tag tags ih =>
    cases tag with
    | opening other complete =>
      simp only [List.cons_append, closes] at h ⊢
      split at h
      · next hkind => simpa only [hkind, if_true] using ih h (Nat.succ_le_succ hle)
      · next hkind => simpa only [hkind, if_false] using ih h hle
    | closing other =>
      simp only [List.cons_append, closes] at h
      split at h
      · next hkind =>
        cases outer with
        | zero => simp only [closes, hkind, if_true]
        | succ outer =>
          obtain ⟨depth, rfl⟩ := Nat.exists_eq_succ_of_ne_zero (by omega : depth ≠ 0)
          simpa only [closes, hkind, if_true] using ih h (Nat.le_of_succ_le_succ hle)
      · next hkind =>
        cases outer <;> simpa only [closes, hkind, if_false] using ih h hle

/-- An opening tag in the body of a block begins a block there. -/
theorem ClosesAt.exists_readBlock? {body inner : Text} (h : ClosesAt kind depth body)
    (hinner : inner <:+ body) (hopener : readOpener? kind inner ≠ none) :
    ∃ b, readBlock? kind inner = some b := by
  obtain ⟨before, rfl⟩ := hinner
  obtain ⟨hopen, hclosed⟩ := closesAt_iff.mp h
  rw [blockTags_append (openBraces_prefix_of_readOpener? hopener)] at hopen hclosed
  obtain ⟨level, hlevel⟩ := exists_depth_of_closes hopen
  rw [List.append_assoc, hlevel] at hclosed
  cases inner with
  | nil => exact absurd (readOpener?_eq_none (by decide) kind) hopener
  | cons c r =>
    rw [blockTags_of_readOpener? hopener, List.cons_append, closes, if_pos rfl] at hclosed
    -- the scan goes down at the tag, and it has to come up again
    obtain ⟨b, hb⟩ := (exists_readAnyBlock?_iff hopener).mpr (closes_of_le hclosed (Nat.zero_le _))
    exact ⟨b, readBlock?_of_readAnyBlock? hopener hb⟩

end Tags

/-! ### Blocks inside of a block -/

/-- Two opening braces that do not stand in a tag stand behind it. -/
theorem suffix_of_avoids {tail s t : Text} (htail : Text.Avoids openBraces tail)
    (hbraces : openBraces <+: s) (h : s <:+ tail ++ t) : s <:+ t := by
  induction tail with
  | nil => exact h
  | cons c tail ih =>
    rcases List.suffix_cons_iff.mp h with rfl | hlater
    · exact absurd hbraces (htail.1 t)
    · exact ih htail.2 hlater

/-- An opening tag that stands behind the one of a block and in front of its end stands in the body
of the block, and begins a block there. -/
theorem exists_inner_block {kind : BlockKind} {s s' : Text} {a : Block}
    (hread : readBlock? kind s = some a) (hs : s' <:+ s) (hshort : s'.length < s.length)
    (hrest : a.rest.length < s'.length) (hopener : readOpener? kind s' ≠ none) :
    ∃ inner b, inner <:+ a.body ∧ s' = inner ++ (kind.closeTag ++ a.rest) ∧
      readBlock? kind inner = some b := by
  obtain ⟨rfl, hcomplete, rfl⟩ := readBlock?_eq_some_iff.mp hread
  obtain ⟨tail, htag, htail⟩ := hcomplete.opener.exists_tail hcomplete.path
  obtain ⟨last, hclose, hlast⟩ := exists_tail_closeTag a.kind
  have hbraces := openBraces_prefix_of_readOpener? hopener
  -- tags do not overlap
  have hbody : s' <:+ a.body ++ (a.kind.closeTag ++ a.rest) := by
    rw [Block.source, htag] at hs hshort
    simp only [List.cons_append, List.append_assoc] at hs hshort
    rcases List.suffix_cons_iff.mp hs with rfl | hlater
    · exact absurd hshort (lt_irrefl _)
    · exact suffix_of_avoids htail hbraces hlater
  have hlong : (a.kind.closeTag ++ a.rest).length ≤ s'.length := by
    by_contra hlength
    have hend : s' <:+ a.kind.closeTag ++ a.rest :=
      List.suffix_of_suffix_length_le hbody (List.suffix_append ..) (by omega)
    rw [hclose, List.cons_append] at hend hlength
    rcases List.suffix_cons_iff.mp hend with rfl | hlater
    · exact hlength le_rfl
    · have hbehind := (suffix_of_avoids hlast hbraces hlater).length_le
      omega
  obtain ⟨inner, rfl, hinner⟩ := exists_suffix_of_length_le hbody hlong
  have hne : inner ≠ [] := by
    rintro rfl
    obtain ⟨⟨path, inside⟩, hinside⟩ := Option.ne_none_iff_exists'.mp hopener
    exact not_openMark_prefix_closeTag a.kind a.kind a.rest (prefix_of_readOpener? hinside)
  have hsame : readOpener? a.kind inner ≠ none := by
    rwa [← Option.isSome_iff_ne_none, ← isSome_readOpener?_append hne
      (openBraces_prefix_closeTag a.kind a.rest), Option.isSome_iff_ne_none]
  obtain ⟨b, hb⟩ := hcomplete.body.exists_readBlock? hinner hsame
  exact ⟨inner, b, hinner, rfl, hb⟩

/-! ### The places -/

section Places

variable {kind : BlockKind}

/-- What is found at an opening tag begins there. -/
@[simp] theorem start_foundAt (offset : Nat) (s : Text) :
    (foundAt kind offset s).start = offset := by
  rw [foundAt]
  split <;> rfl

/-- What is found in a text begins in it. -/
theorem le_start_of_mem_findBlocks {offset : Nat} {s : Text} {x : Found}
    (h : x ∈ findBlocks kind offset s) : offset ≤ x.start := by
  obtain ⟨u, rest, -, -, rfl⟩ := mem_findBlocks.mp h
  rw [start_foundAt]
  omega

/-- What is found is in the order of the text. -/
theorem pairwise_start_findBlocks (offset : Nat) (s : Text) :
    ((findBlocks kind offset s).map Found.start).Pairwise (· < ·) := by
  fun_induction findBlocks kind offset s with
  | case1 => exact List.Pairwise.nil
  | case2 offset c r hnone ih => exact ih
  | case3 offset c r path inside hread hlength found ih =>
    refine List.Pairwise.cons (fun start hstart => ?_) ih
    obtain ⟨x, hx, rfl⟩ := List.mem_map.mp hstart
    have hfirst : found.start = offset := start_foundAt offset (c :: r)
    have hlater := le_start_of_mem_findBlocks hx
    rw [hfirst]
    omega

/-- Something is found exactly where a complete opening tag stands. -/
theorem mem_start_findBlocks {s : Text} {start : Int} :
    start ∈ (findBlocks kind 0 s).map Found.start ↔
      ∃ offset : Nat, start = offset ∧ OpensAt kind s offset := by
  rw [List.mem_map]
  constructor
  · rintro ⟨x, hx, rfl⟩
    obtain ⟨u, rest, rfl, hopener, rfl⟩ := mem_findBlocks.mp hx
    obtain ⟨⟨path, inside⟩, hread⟩ := Option.ne_none_iff_exists'.mp hopener
    obtain ⟨hpath, opener, hspells, hwhole⟩ := spellsOpener_of_readOpener? hread
    rw [start_foundAt, Nat.zero_add]
    refine ⟨u.length, rfl, path, opener, hpath, hspells, ?_⟩
    rw [List.drop_left]
    exact ⟨inside, hwhole.symm⟩
  · rintro ⟨offset, rfl, path, opener, hpath, hspells, rest, hrest⟩
    have hoffset : offset < s.length := by
      by_contra hbehind
      rw [List.drop_eq_nil_of_le (not_lt.mp hbehind)] at hrest
      exact hspells.ne_nil (List.append_eq_nil_iff.mp hrest).1
    have hopener : readOpener? kind (s.drop offset) ≠ none := by
      rw [← hrest, readOpener?_append hspells hpath]
      exact Option.some_ne_none _
    refine ⟨_, mem_findBlocks.mpr ⟨_, _, (List.take_append_drop offset s).symm, hopener, rfl⟩, ?_⟩
    simp [Nat.min_eq_left hoffset.le]

/-- A piece in the middle of a text. -/
theorem extract_middle (before middle after : Text) :
    (before ++ (middle ++ after)).extract before.length (before.length + middle.length) =
      middle := by
  simp [List.extract_eq_take_drop]

/-- The place of a block that is read in a text. -/
theorem isBlockIn_span {u s : Text} {b : Block} (h : readBlock? kind s = some b) :
    (b.span u.length u.length).IsBlockIn kind (u ++ s) := by
  obtain ⟨rfl, hcomplete, rfl⟩ := readBlock?_eq_some_iff.mp h
  have hopener : 0 < b.opener.length := List.length_pos_iff.mpr hcomplete.opener.ne_nil
  have hclosing : 0 < b.kind.closeTag.length := List.length_pos_iff.mpr b.kind.closeTag_ne_nil
  have hfront : (u ++ (b.source ++ b.rest)).extract u.length (u.length + b.opener.length) =
      b.opener := by
    rw [Block.source, List.append_assoc, List.append_assoc]
    exact extract_middle ..
  have hback : (u ++ (b.source ++ b.rest)).extract (u.length + b.opener.length + b.body.length)
      (u.length + b.source.length) = b.kind.closeTag := by
    simpa [Block.source, Nat.add_assoc] using
      extract_middle (u ++ b.opener ++ b.body) b.kind.closeTag b.rest
  refine ⟨rfl, hcomplete.path, Int.natCast_nonneg _, ?_, Nat.le_add_right .., ?_, ?_, ?_, hback⟩
  · simp only [Block.span]
    omega
  · simp only [Block.span, Block.source, List.length_append]
    omega
  · simp only [Block.span, List.length_append]
    omega
  · exact hfront ▸ hcomplete.opener

/-- What begins between the beginning and the end of a block is a block that stands in its body. -/
theorem exists_inside {s : Text} {a : Span} {x : Found} (ha : .block a ∈ findBlocks kind 0 s)
    (hx : x ∈ findBlocks kind 0 s) (hstart : a.start < x.start) (hstop : x.start < a.stop) :
    ∃ b, x = .block b ∧ b.Inside a := by
  obtain ⟨u, t, block, rfl, hread, rfl⟩ := block_mem_findBlocks.mp ha
  obtain ⟨v, t', htext, hopener, rfl⟩ := mem_findBlocks.mp hx
  obtain ⟨rfl, -, hwhole⟩ := readBlock?_eq_some_iff.mp hread
  have hlengths := congrArg List.length htext
  have hlength := congrArg List.length hwhole
  rw [start_foundAt] at hstart hstop
  simp only [Block.span, Block.source, List.length_append] at hstart hstop hlengths hlength
  have hsuffix : t' <:+ t := List.suffix_of_suffix_length_le ⟨v, htext.symm⟩ ⟨u, rfl⟩ (by omega)
  obtain ⟨inner, b, hinner, rfl, hb⟩ :=
    exists_inner_block hread hsuffix (by omega) (by omega) hopener
  have hbefore := hinner.length_le
  have hinside := congrArg List.length (readBlock?_eq_some_iff.mp hb).2.2
  simp only [List.length_append] at hlengths hinside
  refine ⟨_, by rw [foundAt, readBlock?_append_rest hb], ?_, ?_⟩
  · simp only [Block.span]
    omega
  · simp only [Block.span, Block.source, List.length_append] at hinside ⊢
    omega

/-- Blocks that begin at the same place are the same. -/
theorem eq_of_start_eq {s : Text} {x y : Found} (hx : x ∈ findBlocks kind 0 s)
    (hy : y ∈ findBlocks kind 0 s) (hstart : x.start = y.start) : x = y := by
  obtain ⟨u, t, htext, -, rfl⟩ := mem_findBlocks.mp hx
  obtain ⟨v, t', htext', -, rfl⟩ := mem_findBlocks.mp hy
  rw [start_foundAt, start_foundAt] at hstart
  have hlength : u.length = v.length := by omega
  obtain ⟨rfl, rfl⟩ := List.append_inj (htext.symm.trans htext') hlength
  rfl

/-- A block that begins behind the beginning of another one begins behind its end, or it stands in
its body. -/
theorem before_or_inside {s : Text} {a b : Span} (ha : .block a ∈ findBlocks kind 0 s)
    (hb : .block b ∈ findBlocks kind 0 s) (hstart : a.start < b.start) :
    a.Before b ∨ b.Inside a := by
  by_cases hstop : b.start < a.stop
  · obtain ⟨inner, hinner, hinside⟩ := exists_inside ha hb hstart hstop
    obtain rfl := Found.block.inj hinner
    exact Or.inr hinside
  · exact Or.inl (Int.not_lt.mp hstop)

/-- The tags of the blocks that are found stand at their places. -/
theorem isBlockIn_of_mem {s : Text} {a : Span} (ha : .block a ∈ findBlocks kind 0 s) :
    a.IsBlockIn kind s := by
  obtain ⟨u, t, b, rfl, hread, rfl⟩ := block_mem_findBlocks.mp ha
  exact isBlockIn_span hread

/-- Two blocks are the same or apart, or one stands in the body of the other. -/
theorem apart_or_inside {s : Text} {a b : Span} (ha : .block a ∈ findBlocks kind 0 s)
    (hb : .block b ∈ findBlocks kind 0 s) :
    a = b ∨ a.Before b ∨ b.Before a ∨ a.Inside b ∨ b.Inside a := by
  rcases Int.lt_trichotomy a.start b.start with hlt | heq | hgt
  · rcases before_or_inside ha hb hlt with hbefore | hinside
    · exact Or.inr (Or.inl hbefore)
    · exact Or.inr (Or.inr (Or.inr (Or.inr hinside)))
  · exact Or.inl (Found.block.inj (eq_of_start_eq ha hb heq))
  · rcases before_or_inside hb ha hgt with hbefore | hinside
    · exact Or.inr (Or.inr (Or.inl hbefore))
    · exact Or.inr (Or.inr (Or.inr (Or.inl hinside)))

/-- Blocks that end with the same closing tag are the same. -/
theorem eq_of_bodyEnd_eq {s : Text} {a b : Span} (ha : .block a ∈ findBlocks kind 0 s)
    (hb : .block b ∈ findBlocks kind 0 s) (hend : a.bodyEnd = b.bodyEnd) : a = b := by
  obtain ⟨-, -, -, hstart, hbody, hstop, -, -, -⟩ := isBlockIn_of_mem ha
  obtain ⟨-, -, -, hstart', hbody', hstop', -, -, -⟩ := isBlockIn_of_mem hb
  rcases apart_or_inside ha hb with heq | happart
  · exact heq
  · simp only [Span.Before, Span.Inside] at happart
    omega

end Places

/-- **Blocks of a kind are nested.** What is found in a text is one thing at each complete opening
tag, in the order of the text. The tags of a block stand at its places. Two blocks are apart, or one
stands in the body of the other, so no closing tag ends two of them. An opening tag in the body of a
block begins a block that stands in this body too. -/
theorem findBlocks_nested (kind : BlockKind) (s : Text) :
    let found := findBlocks kind 0 s
    (found.map Found.start).Pairwise (· < ·) ∧
      (∀ start, start ∈ found.map Found.start ↔
        ∃ offset : Nat, start = offset ∧ OpensAt kind s offset) ∧
      (∀ a, .block a ∈ found → a.IsBlockIn kind s) ∧
      (∀ a b, .block a ∈ found → .block b ∈ found →
        a = b ∨ a.Before b ∨ b.Before a ∨ a.Inside b ∨ b.Inside a) ∧
      (∀ a b, .block a ∈ found → .block b ∈ found → a.bodyEnd = b.bodyEnd → a = b) ∧
      ∀ a x, .block a ∈ found → x ∈ found → a.bodyStart ≤ x.start → x.start < a.bodyEnd →
        ∃ b, x = .block b ∧ b.Inside a := by
  refine ⟨pairwise_start_findBlocks 0 s, fun start => mem_start_findBlocks,
    fun a => isBlockIn_of_mem, fun a b => apart_or_inside, fun a b => eq_of_bodyEnd_eq, ?_⟩
  intro a x ha hx hstart hend
  have hfirst := (isBlockIn_of_mem ha).start_lt
  have hlast := (isBlockIn_of_mem ha).bodyEnd_lt
  exact exists_inside ha hx (by omega) (by omega)

/-- An incomplete opening tag takes the scan of the outer block down a level, and the block that
stands in it has its own closing tag. -/
theorem findBlocks_nested_of_incomplete_tag :
    let s := ("\x7b\x7b#if a\x7d\x7d\x7b\x7b#if\x7d\x7d\x7b\x7b#if b\x7d\x7dx\x7b\x7b/if\x7d\x7d" ++
      "\x7b\x7b/if\x7d\x7dy\x7b\x7b/if\x7d\x7d\x7b\x7b#if c\x7d\x7d").toList
    let outer : Span := ⟨.conditional, ['a'], 0, 9, 41, 48⟩
    let inner : Span := ⟨.conditional, ['b'], 16, 25, 26, 33⟩
    findBlocks .conditional 0 s = [.block outer, .block inner, .unmatched 48] ∧
      outer.IsBlockIn .conditional s ∧ inner.IsBlockIn .conditional s ∧ inner.Inside outer := by
  intro s outer inner
  have hfound : findBlocks .conditional 0 s = [.block outer, .block inner, .unmatched 48] := by
    decide +kernel
  obtain ⟨-, -, hplace, -, -, hinside⟩ := findBlocks_nested .conditional s
  rw [hfound] at hplace hinside
  obtain ⟨b, hb, h⟩ := hinside outer (.block inner) (by simp) (by simp) (by decide) (by decide)
  obtain rfl := Found.block.inj hb
  exact ⟨hfound, hplace outer (by simp), hplace inner (by simp), h⟩

end Stencil.Template
