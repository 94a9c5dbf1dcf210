import Stencil.Proofs.Template.Pieces
import Stencil.Proofs.Template.Unclosed

/-!
# Line numbers without comments

The check of a template looks at the text with its comments replaced by the line breaks in them, and
reports the lines of what it finds there. A text is made of pieces, its comments and the characters
outside of them. Each piece leaves as many line breaks as it had, so every character outside of the
comments keeps its line. The braces of an opening tag are such characters, for a comment leaves
nothing but line breaks.
-/

namespace Stencil.Template

/-- What is left of a piece when comments are replaced by the line breaks in them. -/
def Piece.stripped : Piece → Text
  | plain c => [c]
  | comment inside => inside.filter (· == '\n')

/-- The character `c` outside of the comments of a text stands at `offset`, and at `moved` when
comments are replaced by the line breaks in them. -/
def Stays (s : Text) (c : Char) (offset moved : Nat) : Prop :=
  ∃ before behind, pieces s = before ++ .plain c :: behind ∧
    offset = (before.flatMap Piece.source).length ∧ moved = (before.flatMap Piece.stripped).length

/-- How many line breaks stand in front of an offset. -/
def breaksBefore (s : Text) (offset : Nat) : Nat := (s.take offset).count '\n'

/-! ### Pieces -/

/-- What is left of the pieces is the text with its comments replaced by line breaks. -/
@[simp] theorem flatMap_stripped_pieces (s : Text) :
    (pieces s).flatMap Piece.stripped = stripComments true s := by
  fun_induction pieces s with
  | case1 =>
    rw [stripComments]
    rfl
  | case2 c r inside rest hread _ ih =>
    rw [List.flatMap_cons, ih, stripComments_comment hread]
    rfl
  | case3 c r hread ih =>
    rw [List.flatMap_cons, ih, stripComments_plain hread]
    rfl

/-- A piece leaves its line breaks. -/
@[simp] theorem Piece.count_stripped (piece : Piece) :
    piece.stripped.count '\n' = piece.source.count '\n' := by
  cases piece with
  | plain c => rfl
  | comment inside =>
    have hopen : commentOpen.count '\n' = 0 := by decide
    have hclose : commentClose.count '\n' = 0 := by decide
    rw [source, List.count_append, List.count_append, hopen, hclose, stripped,
      List.count_filter rfl, Nat.zero_add, Nat.add_zero]

/-- Pieces leave their line breaks. -/
@[simp] theorem count_flatMap_stripped (found : List Piece) :
    (found.flatMap Piece.stripped).count '\n' = (found.flatMap Piece.source).count '\n' := by
  induction found with
  | nil => rfl
  | cons piece found ih =>
    simp [ih]

/-- A character that pieces leave stands outside of the comments if it is no line break. -/
theorem exists_plain_of_getElem? {found : List Piece} {moved : Nat} {c : Char} (hc : c ≠ '\n')
    (h : (found.flatMap Piece.stripped)[moved]? = some c) :
    ∃ before behind, found = before ++ .plain c :: behind ∧
      moved = (before.flatMap Piece.stripped).length := by
  induction found generalizing moved with
  | nil => simp at h
  | cons piece found ih =>
    rw [List.flatMap_cons] at h
    by_cases hlater : piece.stripped.length ≤ moved
    · rw [List.getElem?_append_right hlater] at h
      obtain ⟨before, behind, rfl, hmoved⟩ := ih h
      refine ⟨piece :: before, behind, rfl, ?_⟩
      rw [List.flatMap_cons, List.length_append]
      omega
    · rw [List.getElem?_append_left (not_le.mp hlater)] at h
      cases piece with
      | plain d =>
        obtain rfl : moved = 0 := by simpa [Piece.stripped] using hlater
        obtain rfl := Option.some.inj h
        exact ⟨[], found, rfl, rfl⟩
      | comment inside =>
        have hbreak := (List.mem_filter.mp (List.mem_of_getElem? h)).2
        exact absurd (eq_of_beq hbreak) hc

/-! ### Characters outside of comments -/

section Stays

variable {s : Text} {c : Char} {offset moved : Nat}

/-- A character outside of the comments stands at its offset in the text. -/
theorem Stays.getElem?_source (h : Stays s c offset moved) : s[offset]? = some c := by
  obtain ⟨before, behind, hpieces, rfl, -⟩ := h
  have hwhole := flatMap_source_pieces s
  rw [hpieces, List.flatMap_append] at hwhole
  rw [← hwhole, List.getElem?_append_right le_rfl, Nat.sub_self]
  rfl

/-- It stands at its other offset when comments are replaced by line breaks. -/
theorem Stays.getElem?_stripped (h : Stays s c offset moved) :
    (stripComments true s)[moved]? = some c := by
  obtain ⟨before, behind, hpieces, -, rfl⟩ := h
  rw [← flatMap_stripped_pieces, hpieces, List.flatMap_append, List.getElem?_append_right le_rfl,
    Nat.sub_self]
  rfl

/-- It has as many line breaks in front of it at the one offset as at the other. -/
theorem Stays.breaksBefore_eq (h : Stays s c offset moved) :
    breaksBefore s offset = breaksBefore (stripComments true s) moved := by
  obtain ⟨before, behind, hpieces, rfl, rfl⟩ := h
  have hsource := flatMap_source_pieces s
  have hstripped := flatMap_stripped_pieces s
  rw [hpieces, List.flatMap_append] at hsource hstripped
  rw [breaksBefore, breaksBefore, ← hstripped, List.take_left, count_flatMap_stripped]
  conv_lhs => rw [← hsource, List.take_left]

/-- Every other character than a line break that is left when comments are replaced stands outside
of them. -/
theorem exists_stays (hc : c ≠ '\n') (h : (stripComments true s)[moved]? = some c) :
    ∃ offset, Stays s c offset moved := by
  rw [← flatMap_stripped_pieces] at h
  obtain ⟨before, behind, hpieces, hmoved⟩ := exists_plain_of_getElem? hc h
  exact ⟨_, before, behind, hpieces, rfl, hmoved⟩

/-- Behind a character that is no line break there are as many line breaks as in front of it. -/
theorem breaksBefore_succ (hc : c ≠ '\n') (h : s[offset]? = some c) :
    breaksBefore s (offset + 1) = breaksBefore s offset := by
  rw [breaksBefore, List.take_add_one, h, List.count_append]
  simp [breaksBefore, hc]

end Stays

/-! ### Unmatched tags -/

/-- An unmatched tag begins with two braces. -/
theorem getElem?_of_unmatched {kind : BlockKind} {offset : Nat} {s : Text}
    (h : .unmatched offset ∈ findBlocks kind 0 s) :
    s[offset]? = some '\x7b' ∧ s[offset + 1]? = some '\x7b' := by
  obtain ⟨u, t, rfl, hopener, hfound⟩ := mem_findBlocks.mp h
  obtain ⟨r, rfl⟩ := openBraces_prefix_of_readOpener? hopener
  have hoffset : offset = u.length := by
    unfold foundAt at hfound
    split at hfound
    · contradiction
    · simpa using hfound
  subst hoffset
  simp [openBraces]

/-- **Lines are those of the template.** A text is its pieces put together, with the comments found
from left to right, and replacing comments by the line breaks in them takes each piece by itself.
The text keeps the number of its line breaks, and each character outside of the comments keeps the
number of those in front of it. So the check reports each unmatched tag with the line in which its
two braces stand in the template. -/
theorem lint_reports_lines (source template : Text) :
    let stripped := stripComments true source
    ((pieces source).flatMap Piece.source = source ∧ FoundInOrder (pieces source) ∧
      (pieces source).flatMap Piece.stripped = stripped) ∧
    stripped.count '\n' = source.count '\n' ∧
    (∀ c offset moved, Stays source c offset moved →
      source[offset]? = some c ∧ stripped[moved]? = some c ∧
        breaksBefore source offset = breaksBefore stripped moved) ∧
    ∀ m, m ∈ lint source template ∧ m.rule = .unmatchedBlock ↔
      ∃ kind moved first second, .unmatched moved ∈ findBlocks kind 0 stripped ∧
        Stays source '\x7b' first moved ∧ Stays source '\x7b' second (moved + 1) ∧
        breaksBefore source second = breaksBefore source first ∧
        m = ⟨template, breaksBefore source first + 1, .unmatchedBlock,
          kind.shown '#' ++ " opened here is never closed".toList⟩ := by
  intro stripped
  refine ⟨⟨flatMap_source_pieces source, foundInOrder_pieces source,
    flatMap_stripped_pieces source⟩, ?_, ?_, fun m => ?_⟩
  · have hstripped := count_flatMap_stripped (pieces source)
    rwa [flatMap_stripped_pieces, flatMap_source_pieces] at hstripped
  · intro c offset moved h
    exact ⟨h.getElem?_source, h.getElem?_stripped, h.breaksBefore_eq⟩
  · rw [mem_lint_unmatchedBlock_iff]
    constructor
    · rintro ⟨kind, moved, hfound, rfl⟩
      obtain ⟨hfirst, hsecond⟩ := getElem?_of_unmatched hfound
      obtain ⟨first, hstays⟩ := exists_stays (by decide) hfirst
      obtain ⟨second, hnext⟩ := exists_stays (by decide) hsecond
      refine ⟨kind, moved, first, second, hfound, hstays, hnext, ?_, ?_⟩
      · rw [hnext.breaksBefore_eq, hstays.breaksBefore_eq, breaksBefore_succ (by decide) hfirst]
      · rw [hstays.breaksBefore_eq]
        rfl
    · rintro ⟨kind, moved, first, second, hfound, hstays, -, -, rfl⟩
      refine ⟨kind, moved, hfound, ?_⟩
      rw [hstays.breaksBefore_eq]
      rfl

/-- Behind a comment of two lines, an opening tag whose braces another comment parts. -/
example :
    let comment := commentOpen ++ ['\n'] ++ commentClose
    let source := comment ++ ['\x7b'] ++ commentOpen ++ commentClose ++ "\x7b#if a\x7d\x7d".toList
    (lintKind [] (stripComments true source) .conditional).map (·.line) = [0, 2] := by
  decide +kernel

end Stencil.Template
