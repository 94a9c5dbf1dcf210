import Stencil.Template.Tag
import Stencil.Fault

/-!
# Blocks

Blocks nest, so the closing tag of a block is not the next one of its kind: a scan counts opening
and closing tags and stops at the closing tag that brings the count back to zero. The tag between
the two bodies of a conditional is found by a second scan, which steps over whole blocks.
-/

namespace Stencil.Template

/-! ### The closing tag -/

/-- Splits a text at the closing tag of a block that was opened before it: the text up to the tag
and the text after it. Each opening tag on the way adds a level to `depth`, each closing tag takes
one away. -/
def splitClose? (opening closing : Text) (depth : Nat) (s : Text) : Option (Text × Text) :=
  match s with
  | [] => none
  | c :: r =>
    if closing.isPrefixOf (c :: r) then
      match depth with
      | 0 => some ([], r.drop (closing.length - 1))
      | outer + 1 =>
        (splitClose? opening closing outer (r.drop (closing.length - 1))).map
          fun (body, rest) => (closing ++ body, rest)
    else if opening.isPrefixOf (c :: r) then
      (splitClose? opening closing (depth + 1) (r.drop (opening.length - 1))).map
        fun (body, rest) => (opening ++ body, rest)
    else (splitClose? opening closing depth r).map fun (body, rest) => (c :: body, rest)
termination_by s.length
decreasing_by all_goals simp; try omega

/-- A text that begins with a tag is the tag and what the scan goes on with. -/
theorem cons_eq_append_drop {tag r : Text} {c : Char} (htag : tag ≠ [])
    (h : tag.isPrefixOf (c :: r)) : c :: r = tag ++ r.drop (tag.length - 1) := by
  obtain ⟨after, hafter⟩ := List.isPrefixOf_iff_prefix.mp h
  cases tag with
  | nil => exact absurd rfl htag
  | cons d t =>
    simp only [List.cons_append, List.cons.injEq] at hafter
    simp [← hafter.1, ← hafter.2]

/-- The text up to the closing tag, the tag, and the text after it are the whole text. -/
theorem eq_of_splitClose? {opening closing : Text} (hopening : opening ≠ [])
    (hclosing : closing ≠ []) {depth : Nat} {s body rest : Text}
    (h : splitClose? opening closing depth s = some (body, rest)) :
    s = body ++ closing ++ rest := by
  fun_induction splitClose? opening closing depth s generalizing body rest with
  | case1 => simp at h
  | case2 c r hc =>
    simp only [Option.some.injEq, Prod.mk.injEq] at h
    simp only [← h.1, ← h.2, List.nil_append]
    exact cons_eq_append_drop hclosing hc
  | case3 c r hc outer ih =>
    simp only [Option.map_eq_some_iff, Prod.exists, Prod.mk.injEq] at h
    obtain ⟨body', rest', h, rfl, rfl⟩ := h
    rw [cons_eq_append_drop hclosing hc, ih h]
    simp
  | case4 depth c r hc ho ih =>
    simp only [Option.map_eq_some_iff, Prod.exists, Prod.mk.injEq] at h
    obtain ⟨body', rest', h, rfl, rfl⟩ := h
    rw [cons_eq_append_drop hopening ho, ih h]
    simp
  | case5 depth c r hc ho ih =>
    simp only [Option.map_eq_some_iff, Prod.exists, Prod.mk.injEq] at h
    obtain ⟨body', rest', h, rfl, rfl⟩ := h
    rw [ih h]
    simp

/-! ### Whole blocks -/

/-- A block read from the front of a text. -/
structure Block where
  kind : BlockKind
  path : Text
  /-- The opening tag as it is written. -/
  opener : Text
  body : Text
  /-- What follows the closing tag. -/
  rest : Text

/-- A block of a kind at the front of a text. -/
def readBlock? (kind : BlockKind) (s : Text) : Option Block := do
  let (path, inside) ← readOpener? kind s
  let (body, rest) ← splitClose? kind.openMark kind.closeTag 0 inside
  some ⟨kind, path, s.take (s.length - inside.length), body, rest⟩

/-- A block of any kind at the front of a text. -/
def readAnyBlock? (s : Text) : Option Block := BlockKind.all.findSome? (readBlock? · s)

/-- What an opening tag begins with is not empty. -/
@[simp] theorem BlockKind.openMark_ne_nil (kind : BlockKind) : kind.openMark ≠ [] := by
  simp [openMark, blockMark]

/-- A closing tag is not empty. -/
@[simp] theorem BlockKind.closeTag_ne_nil (kind : BlockKind) : kind.closeTag ≠ [] := by
  simp [closeTag, openBraces]

/-- The text of a block as it is written. -/
def Block.source (b : Block) : Text := b.opener ++ b.body ++ b.kind.closeTag

/-- A block and what follows it are as long as the text. -/
theorem length_readBlock? {kind : BlockKind} {s : Text} {b : Block}
    (h : readBlock? kind s = some b) : b.source.length + b.rest.length = s.length := by
  simp only [readBlock?, Option.bind_eq_bind, Option.bind_eq_some_iff, Prod.exists,
    Option.some.injEq] at h
  obtain ⟨path, inside, hopener, body, rest, hclose, rfl⟩ := h
  have hinside := eq_of_splitClose? kind.openMark_ne_nil kind.closeTag_ne_nil hclose
  have := congrArg List.length hinside
  have := length_readOpener? hopener
  simp only [Block.source, List.length_append, List.length_take] at *
  omega

/-- A block and what follows it are as long as the text. -/
theorem length_readAnyBlock? {s : Text} {b : Block} (h : readAnyBlock? s = some b) :
    b.source.length + b.rest.length = s.length := by
  obtain ⟨kind, -, h⟩ := List.exists_of_findSome?_eq_some h
  exact length_readBlock? h

/-- The body of a block is shorter than the block. -/
theorem Block.length_body_lt (b : Block) : b.body.length < b.source.length := by
  simp only [source, BlockKind.closeTag, openBraces, List.length_append, List.length_cons]
  omega

/-! ### The tag between two bodies -/

/-- Splits the body of a conditional at the tag between its two parts. A block in the body is
stepped over as a whole; an opening tag that begins no block is text. -/
def splitElse? (tag : Text) (s : Text) : Option (Text × Text) :=
  match s with
  | [] => if tag.isEmpty then some ([], []) else none
  | c :: r =>
    if blockMark.isPrefixOf (c :: r) then
      match h : readAnyBlock? (c :: r) with
      | some b =>
        have := length_readAnyBlock? h
        have := b.length_body_lt
        (splitElse? tag b.rest).map fun (before, after) => (b.source ++ before, after)
      | none =>
        (splitElse? tag (r.drop (blockMark.length - 1))).map
          fun (before, after) => (blockMark ++ before, after)
    else
      match tag.isPrefixOf? (c :: r) with
      | some rest => some ([], rest)
      | none => (splitElse? tag r).map fun (before, after) => (c :: before, after)
termination_by s.length
decreasing_by all_goals simp_all; try omega

/-- Neither part of a body is longer than the body. -/
theorem length_splitElse? {tag s before after : Text}
    (h : splitElse? tag s = some (before, after)) :
    before.length ≤ s.length ∧ after.length ≤ s.length := by
  fun_induction splitElse? tag s generalizing before after with
  | case1 => simp_all
  | case2 => simp at h
  | case3 c r hm b hb _ _ ih =>
    simp only [Option.map_eq_some_iff, Prod.exists, Prod.mk.injEq] at h
    obtain ⟨before', after', h, rfl, rfl⟩ := h
    have := length_readAnyBlock? hb
    have := ih h
    simp only [List.length_append]
    omega
  | case4 c r hm hb ih =>
    simp only [Option.map_eq_some_iff, Prod.exists, Prod.mk.injEq] at h
    obtain ⟨before', after', h, rfl, rfl⟩ := h
    have := (List.isPrefixOf_iff_prefix.mp hm).length_le
    have := ih h
    simp only [List.length_append, List.length_cons, List.length_drop] at *
    omega
  | case5 c r hm rest hrest =>
    simp only [Option.some.injEq, Prod.mk.injEq] at h
    obtain ⟨rfl, rfl⟩ := h
    have := Text.length_of_isPrefixOf? hrest
    simp only [List.length_nil]
    omega
  | case6 c r hm hrest ih =>
    simp only [Option.map_eq_some_iff, Prod.exists, Prod.mk.injEq] at h
    obtain ⟨before', after', h, rfl, rfl⟩ := h
    have := ih h
    simp only [List.length_cons]
    omega

/-! ### Places in a text -/

/-- Where a block stands in a text; the offsets count characters. -/
structure Span where
  kind : BlockKind
  path : Text
  start : Int
  bodyStart : Nat
  bodyEnd : Nat
  stop : Nat
deriving DecidableEq, Repr

/-- The place of a block that was read at an offset. -/
def Block.span (b : Block) (start : Int) (offset : Nat) : Span where
  kind := b.kind
  path := b.path
  start := start
  bodyStart := offset + b.opener.length
  bodyEnd := offset + b.opener.length + b.body.length
  stop := offset + b.source.length

/-- Where the closing tag stands for a block that was opened before `start`; a negative start counts
from the end. -/
def closeOffset? (source : Text) (start : Int) (opening closing : Text) :
    Except Fault (Option Nat) :=
  if opening.isEmpty || closing.isEmpty then .error .emptyTag
  else
    let offset := if start < 0 then (source.length + start).toNat else start.toNat
    .ok ((splitClose? opening closing 0 (source.drop offset)).map fun (body, _) =>
      offset + body.length)

/-- Where the tag between the two parts of a body stands. -/
def elseOffset? (body tag : Text) : Option Nat :=
  (splitElse? tag body).map fun (before, _) => before.length

/-- The block of a kind at an offset; one before the start counts as the start. -/
def spanAt? (source : Text) (kind : BlockKind) (start : Int) : Option Span :=
  let offset := min start.toNat source.length
  (readBlock? kind (source.drop offset)).map (·.span start offset)

/-- What begins at an opening tag. -/
inductive Found
  | block (span : Span)
  /-- An opening tag without its closing tag, by its offset. -/
  | unmatched (offset : Nat)
deriving DecidableEq, Repr

/-- What begins at each opening tag of a kind, in order; `offset` characters precede the text. -/
def findBlocks (kind : BlockKind) (offset : Nat) (s : Text) : List Found :=
  match s with
  | [] => []
  | c :: r =>
    match h : readOpener? kind (c :: r) with
    | none => findBlocks kind (offset + 1) r
    | some (_, inside) =>
      have := length_readOpener? h
      let found :=
        match readBlock? kind (c :: r) with
        | some b => .block (b.span offset offset)
        | none => .unmatched offset
      found :: findBlocks kind (offset + ((c :: r).length - inside.length)) inside
termination_by s.length
decreasing_by all_goals simp_all

end Stencil.Template
