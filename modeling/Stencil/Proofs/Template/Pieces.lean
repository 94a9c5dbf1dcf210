import Stencil.Template.Comment
import Stencil.Proofs.Text.Search

/-!
# The pieces of a text

A text is made of pieces: its comments, and the characters outside of them. The comments are those
that are found from left to right, each up to the first closing mark in it.
-/

namespace Stencil.Template

/-- A piece of a text: a character outside of its comments, or a comment by what is inside of it. -/
inductive Piece
  | plain (c : Char)
  | comment (inside : Text)
deriving DecidableEq, Repr

/-- A piece as it is written. -/
def Piece.source : Piece → Text
  | plain c => [c]
  | comment inside => commentOpen ++ inside ++ commentClose

/-- The pieces of a text. -/
def pieces (s : Text) : List Piece :=
  match s with
  | [] => []
  | c :: r =>
    match h : readComment? (c :: r) with
    | some (inside, rest) =>
      have := length_readComment? h
      .comment inside :: pieces rest
    | none => .plain c :: pieces r
termination_by s.length
decreasing_by all_goals simp_all

/-- Pieces are as comments are found from left to right: a comment ends with the first closing mark
in it, and no comment begins at a character outside of them. -/
def FoundInOrder : List Piece → Prop
  | [] => True
  | .plain c :: behind =>
    (∀ inside, ¬ commentOpen ++ inside ++ commentClose <+: c :: behind.flatMap Piece.source) ∧
      FoundInOrder behind
  | .comment inside :: behind =>
    ¬ commentClose <:+: inside ++ commentClose.dropLast ∧ FoundInOrder behind

/-! ### Single comments -/

/-- A comment is read up to the first closing mark in it. -/
theorem readComment?_eq_some_iff {s inside rest : Text} :
    readComment? s = some (inside, rest) ↔
      s = commentOpen ++ inside ++ commentClose ++ rest ∧
        ¬ commentClose <:+: inside ++ commentClose.dropLast := by
  simp only [readComment?, Option.bind_eq_bind, Option.bind_eq_some_iff,
    List.isPrefixOf?_eq_some_iff_append_eq,
    Text.cut?_eq_some_iff (show commentClose ≠ [] by decide)]
  constructor
  · rintro ⟨whole, rfl, rfl, hfirst⟩
    exact ⟨by simp only [List.append_assoc], hfirst⟩
  · rintro ⟨rfl, hfirst⟩
    exact ⟨inside ++ commentClose ++ rest, by simp only [List.append_assoc], rfl, hfirst⟩

/-- A comment that is read is the beginning of the text. -/
theorem eq_of_readComment? {s inside rest : Text} (h : readComment? s = some (inside, rest)) :
    s = commentOpen ++ inside ++ commentClose ++ rest :=
  (readComment?_eq_some_iff.mp h).1

/-- No comment is read exactly if none is the beginning of the text. -/
theorem readComment?_eq_none_iff {s : Text} :
    readComment? s = none ↔ ∀ inside, ¬ commentOpen ++ inside ++ commentClose <+: s := by
  constructor
  · rintro hread inside ⟨rest, rfl⟩
    simp only [readComment?, List.append_assoc, Text.isPrefixOf?_append, Option.bind_eq_bind,
      Option.bind_some] at hread
    have hcut := Text.isSome_cut?_iff.mpr (List.infix_append' inside commentClose rest)
    rw [hread] at hcut
    contradiction
  · intro h
    rw [Option.eq_none_iff_forall_ne_some]
    rintro ⟨inside, rest⟩ hread
    exact h inside ⟨rest, (eq_of_readComment? hread).symm⟩

/-! ### All pieces -/

/-- A comment at the front of a text is its first piece. -/
theorem pieces_comment {s inside rest : Text} (h : readComment? s = some (inside, rest)) :
    pieces s = .comment inside :: pieces rest := by
  cases s with
  | nil => contradiction
  | cons c r =>
    rw [pieces]
    split
    · next hread =>
      rw [h] at hread
      obtain ⟨rfl, rfl⟩ := Prod.mk.inj (Option.some.inj hread)
      rfl
    · next hread => simp [h] at hread

/-- A character at which no comment begins is a piece. -/
theorem pieces_plain {c : Char} {r : Text} (h : readComment? (c :: r) = none) :
    pieces (c :: r) = .plain c :: pieces r := by
  rw [pieces]
  split
  · next hread => simp [h] at hread
  · rfl

/-- The pieces of a text put together are the text. -/
@[simp] theorem flatMap_source_pieces (s : Text) : (pieces s).flatMap Piece.source = s := by
  fun_induction pieces s with
  | case1 => rfl
  | case2 c r inside rest hread _ ih =>
    rw [List.flatMap_cons, ih]
    exact (eq_of_readComment? hread).symm
  | case3 c r hread ih =>
    rw [List.flatMap_cons, ih]
    rfl

/-- The comments among the pieces of a text are found from left to right. -/
theorem foundInOrder_pieces (s : Text) : FoundInOrder (pieces s) := by
  fun_induction pieces s with
  | case1 => trivial
  | case2 c r inside rest hread _ ih => exact ⟨(readComment?_eq_some_iff.mp hread).2, ih⟩
  | case3 c r hread ih =>
    refine ⟨?_, ih⟩
    rw [flatMap_source_pieces]
    exact readComment?_eq_none_iff.mp hread

/-- Pieces whose comments are found from left to right are the pieces of what they are put
together to. -/
theorem pieces_flatMap_source {found : List Piece} (h : FoundInOrder found) :
    pieces (found.flatMap Piece.source) = found := by
  induction found with
  | nil => rw [List.flatMap_nil, pieces]
  | cons piece found ih =>
    rw [List.flatMap_cons]
    cases piece with
    | plain c =>
      rw [Piece.source, List.singleton_append, pieces_plain (readComment?_eq_none_iff.mpr h.1),
        ih h.2]
    | comment inside =>
      rw [Piece.source, pieces_comment (readComment?_eq_some_iff.mpr ⟨rfl, h.1⟩), ih h.2]

/-- **A text has one row of pieces.** Of all rows of pieces that are put together to a text, one has
its comments as they are found from left to right. -/
theorem eq_pieces_iff {found : List Piece} {s : Text} :
    found = pieces s ↔ found.flatMap Piece.source = s ∧ FoundInOrder found := by
  constructor
  · rintro rfl
    exact ⟨flatMap_source_pieces s, foundInOrder_pieces s⟩
  · rintro ⟨rfl, h⟩
    exact (pieces_flatMap_source h).symm

end Stencil.Template
