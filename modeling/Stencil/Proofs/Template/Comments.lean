import Stencil.Proofs.Template.Lossless
import Stencil.Proofs.Template.Pieces

/-!
# What is left when comments are taken out

Comments are taken out in one pass from left to right. What stood on the two sides of a comment is
then side by side, and an opening mark can come into being there that no side had. This file says
that a complete comment is left over in no other way, and what follows where none is.
-/

namespace Stencil.Template

/-- Whether a text has a complete comment in it: an opening mark, and a closing mark somewhere
behind it. -/
def HasComment (s : Text) : Prop := ∃ inside, commentOpen ++ inside ++ commentClose <:+: s

/-- The characters before, between and behind the comments among pieces. -/
def plainRuns : List Piece → List Text
  | [] => [[]]
  | .plain c :: behind => (plainRuns behind).modifyHead (c :: ·)
  | .comment _ :: behind => [] :: plainRuns behind

/-- The parts of a text before, between and behind the comments that are taken out of it. -/
def keptParts (s : Text) : List Text := plainRuns (pieces s)

/-- Whether a mark that stands behind `before`, when parts are put together, stands inside of one of
the parts. -/
def StandsInPart (mark : Text) (parts : List Text) (before : Text) : Prop :=
  ∃ first left right second,
    parts = first ++ (left ++ mark ++ right) :: second ∧ before = first.flatten ++ left

/-- Whether taking out comments makes a comment: in the parts put together there is one with an
opening mark that stands in none of the parts. -/
def JoinsComment (s : Text) : Prop :=
  ∃ before inside after,
    (keptParts s).flatten = before ++ (commentOpen ++ inside ++ commentClose) ++ after ∧
      ¬ StandsInPart commentOpen (keptParts s) before

/-- A comment is part of every text of which a text that has it is part. -/
theorem HasComment.mono {s t : Text} (hs : HasComment s) (h : s <:+: t) : HasComment t := by
  obtain ⟨inside, hinside⟩ := hs
  exact ⟨inside, hinside.trans h⟩

/-! ### The parts -/

variable {found : List Piece}

/-- The first part, and what it is followed by: either no comment is in the text and it is the only
part, or a comment follows. -/
theorem exists_plainRuns (h : FoundInOrder found) :
    ∃ part rest, plainRuns found = part :: rest ∧
      ((found.flatMap Piece.source = part ∧ rest = [] ∧ ¬ HasComment part) ∨
        ∃ inside behind, rest = plainRuns behind ∧ found.flatMap Piece.source =
          part ++ (commentOpen ++ inside ++ commentClose) ++ behind.flatMap Piece.source) := by
  induction found with
  | nil => exact ⟨[], [], rfl, Or.inl ⟨rfl, rfl, by simp [HasComment, commentOpen]⟩⟩
  | cons piece found ih =>
    cases piece with
    | comment inside => exact ⟨[], _, rfl, Or.inr ⟨inside, found, rfl, rfl⟩⟩
    | plain c =>
      obtain ⟨hfront, hbehind⟩ := h
      obtain ⟨part, rest, hparts, hrest⟩ := ih hbehind
      refine ⟨c :: part, rest, by rw [plainRuns, hparts, List.modifyHead_cons], ?_⟩
      rcases hrest with ⟨hsource, hrest, hnone⟩ | ⟨inside, behind, hrest, hsource⟩
      · refine Or.inl ⟨congrArg (c :: ·) hsource, hrest, ?_⟩
        rintro ⟨inside, hinside⟩
        rcases List.infix_cons_iff.mp hinside with hfirst | hlater
        · exact hfront inside (hsource ▸ hfirst)
        · exact hnone ⟨inside, hlater⟩
      · exact Or.inr ⟨inside, behind, hrest, congrArg (c :: ·) hsource⟩

/-- The parts of pieces put together have no more characters than the pieces. -/
theorem length_flatten_plainRuns_le (found : List Piece) :
    (plainRuns found).flatten.length ≤ (found.flatMap Piece.source).length := by
  induction found with
  | nil => exact le_rfl
  | cons piece found ih =>
    rw [List.flatMap_cons, List.length_append]
    cases piece with
    | comment inside => exact Nat.le_add_left_of_le ih
    | plain c =>
      rw [plainRuns]
      cases hruns : plainRuns found with
      | nil => exact Nat.zero_le _
      | cons part rest =>
        rw [hruns] at ih
        simp only [List.modifyHead_cons, List.flatten_cons, List.length_append, List.length_cons,
          Piece.source, List.length_nil] at ih ⊢
        omega

/-- The text without its comments is the parts put together. -/
@[simp] theorem flatten_keptParts (s : Text) : (keptParts s).flatten = stripComments false s := by
  unfold keptParts
  fun_induction pieces s with
  | case1 =>
    rw [stripComments]
    rfl
  | case2 c r inside rest hread _ ih =>
    rw [plainRuns, List.flatten_cons, ih, stripComments_comment hread]
    rfl
  | case3 c r hread ih =>
    obtain ⟨part, rest, hparts, -⟩ := exists_plainRuns (foundInOrder_pieces r)
    rw [plainRuns, stripComments_plain hread, ← ih, hparts]
    rfl

/-- An opening mark that stands in a part stands in the last one, with no closing mark behind it:
else there would be a comment. -/
theorem eq_nil_of_plainRuns_eq (h : FoundInOrder found) {left right : Text}
    {first second : List Text}
    (hparts : plainRuns found = first ++ (left ++ commentOpen ++ right) :: second) :
    second = [] ∧ ¬ commentClose <:+: right := by
  induction found generalizing first left with
  | nil =>
    cases first with
    | nil => simp [plainRuns, commentOpen] at hparts
    | cons => simp [plainRuns] at hparts
  | cons piece found ih =>
    cases piece with
    | comment inside =>
      cases first with
      | nil => simp [plainRuns, commentOpen] at hparts
      | cons part first => exact ih h.2 (List.cons.inj hparts).2
    | plain c =>
      obtain ⟨hfront, hbehind⟩ := h
      obtain ⟨part, rest, hruns, hrest⟩ := exists_plainRuns hbehind
      rw [plainRuns, hruns, List.modifyHead_cons] at hparts
      cases first with
      | cons part' first =>
        have hlater : plainRuns found =
            (part :: first) ++ (left ++ commentOpen ++ right) :: second := by
          rw [hruns, (List.cons.inj hparts).2]
          rfl
        exact ih hbehind hlater
      | nil =>
        obtain ⟨hpart, rfl⟩ := List.cons.inj hparts
        cases left with
        | cons d left =>
          have hlater : plainRuns found = [] ++ (left ++ commentOpen ++ right) :: rest := by
            rw [hruns, (List.cons.inj hpart).2]
            rfl
          exact ih hbehind hlater
        | nil =>
          -- The mark stands at the front, where no comment was found.
          have hpart : c :: part = commentOpen ++ right := hpart
          rcases hrest with ⟨hsource, hrest, -⟩ | ⟨inside, behind, -, hsource⟩
          · refine ⟨hrest, ?_⟩
            rintro ⟨inside, after, rfl⟩
            refine hfront inside ⟨after, ?_⟩
            rw [hsource, hpart]
            simp only [List.append_assoc]
          · refine absurd ⟨behind.flatMap Piece.source, ?_⟩
              (hfront (right ++ commentOpen ++ inside))
            rw [hsource, ← List.cons_append, ← List.cons_append, hpart]
            simp only [List.append_assoc]

/-! ### Comments that are left -/

/-- Each comment that is left has an opening mark that stands in none of the parts. -/
theorem not_standsInPart_of_comment_left {s before inside after : Text}
    (h : stripComments false s =
      before ++ (commentOpen ++ inside ++ commentClose) ++ after) :
    ¬ StandsInPart commentOpen (keptParts s) before := by
  rintro ⟨first, left, right, second, hparts, rfl⟩
  obtain ⟨rfl, hclose⟩ := eq_nil_of_plainRuns_eq (foundInOrder_pieces s) hparts
  have hbehind : right = inside ++ commentClose ++ after := by
    rw [← flatten_keptParts, hparts] at h
    simpa using h
  exact hclose ⟨inside, after, hbehind.symm⟩

/-- What is left has a comment exactly if taking out comments makes one. -/
theorem hasComment_stripComments_iff (s : Text) :
    HasComment (stripComments false s) ↔ JoinsComment s := by
  constructor
  · rintro ⟨inside, before, after, heq⟩
    exact ⟨before, inside, after, (flatten_keptParts s).trans heq.symm,
      not_standsInPart_of_comment_left heq.symm⟩
  · rintro ⟨before, inside, after, heq, -⟩
    exact ⟨inside, before, after, heq.symm.trans (flatten_keptParts s)⟩

/-- Taking out comments changes nothing exactly if there are none. -/
theorem stripComments_eq_self_iff (s : Text) : stripComments false s = s ↔ ¬ HasComment s := by
  obtain ⟨part, rest, hparts, hrest⟩ := exists_plainRuns (foundInOrder_pieces s)
  rw [flatMap_source_pieces] at hrest
  rw [← flatten_keptParts, keptParts, hparts, List.flatten_cons]
  rcases hrest with ⟨rfl, rfl, hnone⟩ | ⟨inside, behind, rfl, hwhole⟩
  · simp [hnone]
  · have hcomment : HasComment s := ⟨inside, part, behind.flatMap Piece.source, hwhole.symm⟩
    refine iff_of_false (fun heq => ?_) (not_not_intro hcomment)
    have hlength := length_flatten_plainRuns_le behind
    have hsame := congrArg List.length (heq.trans hwhole)
    simp only [commentOpen, List.length_append, List.length_cons] at hsame
    omega

/-! ### Texts of trees -/

mutual

/-- The texts in a node, at any depth. -/
def Node.texts : Node → List Text
  | .text s => [s]
  | .escaped _ => []
  | .raw _ => []
  | .partialRef _ => []
  | .conditional _ thenBody elseBody => textsAll thenBody ++ textsAll elseBody
  | .negated _ body => textsAll body
  | .each _ body => textsAll body
  | .within _ body => textsAll body

/-- The texts in nodes, at any depth. -/
def textsAll : List Node → List Text
  | [] => []
  | node :: rest => node.texts ++ textsAll rest

end

mutual

/-- The texts in a node are parts of each of its spellings. -/
theorem infix_of_spells {node : Node} {s t : Text} (h : Spells node s) (ht : t ∈ node.texts) :
    t <:+: s := by
  cases h with
  | text s => rw [List.mem_singleton.mp ht]
  | escaped => contradiction
  | raw => contradiction
  | partialRef => contradiction
  | @conditional path opener first second _ _ hopener hthen helse =>
    rcases List.mem_append.mp ht with ht | ht
    · have hfirst := List.infix_append opener first
        (elseTag ++ second ++ BlockKind.conditional.closeTag)
      simpa only [List.append_assoc] using (infix_of_spellsAll hthen ht).trans hfirst
    · exact (infix_of_spellsAll helse ht).trans (List.infix_append ..)
  | conditionalThen hopener hthen =>
    rw [Node.texts, textsAll, List.append_nil] at ht
    exact (infix_of_spellsAll hthen ht).trans (List.infix_append ..)
  | negated hopener hbody => exact (infix_of_spellsAll hbody ht).trans (List.infix_append ..)
  | each hopener hbody => exact (infix_of_spellsAll hbody ht).trans (List.infix_append ..)
  | within hopener hbody => exact (infix_of_spellsAll hbody ht).trans (List.infix_append ..)

/-- The texts in nodes are parts of each of their spellings. -/
theorem infix_of_spellsAll {nodes : List Node} {s t : Text} (h : SpellsAll nodes s)
    (ht : t ∈ textsAll nodes) : t <:+: s := by
  cases h with
  | nil => contradiction
  | @cons node rest s u hnode hrest =>
    rcases List.mem_append.mp ht with ht | ht
    · exact (infix_of_spells hnode ht).trans (List.prefix_append s u).isInfix
    · exact (infix_of_spellsAll hrest ht).trans (List.suffix_append s u).isInfix

end

/-- **Comments that are left over.** The pieces of a text are those that are put together to it and
have its comments as they are found from left to right. Taking out comments leaves the parts before,
between and behind them. Each complete comment that is left was made by joining what stood on the
two sides of a comment: its opening mark stands in none of the parts. So a complete comment is left
exactly if one was made. Where none was made, taking out comments again changes nothing, and no text
in the template contains a comment. -/
theorem comment_left_iff_joined (s : Text) :
    (∀ found, found = pieces s ↔ found.flatMap Piece.source = s ∧ FoundInOrder found) ∧
    stripComments false s = (keptParts s).flatten ∧
    (∀ before inside after, stripComments false s =
        before ++ (commentOpen ++ inside ++ commentClose) ++ after →
      ¬ StandsInPart commentOpen (keptParts s) before) ∧
    (HasComment (stripComments false s) ↔ JoinsComment s) ∧
    (stripComments false (stripComments false s) = stripComments false s ↔ ¬ JoinsComment s) ∧
    (¬ JoinsComment s → ∀ t ∈ textsAll (parse s).nodes, ¬ HasComment t) := by
  refine ⟨fun _ => eq_pieces_iff, (flatten_keptParts s).symm,
    fun _ _ _ => not_standsInPart_of_comment_left, hasComment_stripComments_iff s, ?_,
    fun hnone t ht hcomment => hnone ?_⟩
  · rw [stripComments_eq_self_iff, hasComment_stripComments_iff]
  · have hspells : SpellsAll (parse s).nodes (stripComments false s) := spellsAll_parseBare _
    rw [← hasComment_stripComments_iff]
    exact hcomment.mono (infix_of_spellsAll hspells ht)

/-- Braces on the two sides of a comment that open no comment together: none is left, though one of
the texts of the template holds an opening mark. And an opening mark with a comment inside of it:
the comment that is left stands where no part has its opening mark. -/
theorem comment_left_iff_joined_of_braces :
    let comment := commentOpen ++ ['x'] ++ commentClose
    let s := ['\x7b'] ++ comment ++ ['\x7b'] ++ comment ++ commentOpen
    let split := "\x7b\x7b!-".toList ++ comment ++ "-b--\x7d\x7d".toList
    (keptParts s = [['\x7b'], ['\x7b'], commentOpen] ∧ ¬ JoinsComment s ∧
      ¬ HasComment (stripComments false s) ∧
      ∀ t ∈ textsAll (parse s).nodes, ¬ HasComment t) ∧
    keptParts split = ["\x7b\x7b!-".toList, "-b--\x7d\x7d".toList] ∧
      stripComments false split = commentOpen ++ ['b'] ++ commentClose ∧
      ¬ StandsInPart commentOpen (keptParts split) [] ∧ JoinsComment split := by
  intro comment s split
  have hagain : stripComments false (stripComments false s) = stripComments false s := by
    decide +kernel
  obtain ⟨-, -, -, hleft, hsame, htexts⟩ := comment_left_iff_joined s
  have hnone : ¬ JoinsComment s := hsame.mp hagain
  have hb : stripComments false split = commentOpen ++ ['b'] ++ commentClose := by
    decide +kernel
  obtain ⟨-, -, hmarks, hjoined, -, -⟩ := comment_left_iff_joined split
  have hcomment : HasComment (stripComments false split) := ⟨['b'], hb ▸ List.infix_rfl⟩
  exact ⟨⟨by decide +kernel, hnone, fun h => hnone (hleft.mp h), htexts hnone⟩,
    by decide +kernel, hb, hmarks [] ['b'] [] hb, hjoined.mp hcomment⟩

/-- A comment inside of an opening mark: when it is taken out a comment is left, which is taken out
when comments are taken out again, and which is text of the template. -/
theorem comment_left_of_split_mark :
    let s := "\x7b\x7b!-\x7b\x7b!--a--\x7d\x7d-b--\x7d\x7d".toList
    HasComment (stripComments false s) ∧
      stripComments false (stripComments false s) ≠ stripComments false s ∧
      ∃ t ∈ textsAll (parse s).nodes, HasComment t := by
  intro s
  have hinside : commentOpen ++ ['b'] ++ commentClose <:+: stripComments false s := by
    decide +kernel
  have htext : textsAll (parse s).nodes = [commentOpen ++ ['b'] ++ commentClose] := by
    decide +kernel
  refine ⟨⟨['b'], hinside⟩, by decide +kernel, _, ?_, ['b'], List.infix_rfl⟩
  rw [htext]
  exact List.mem_singleton_self _

end Stencil.Template
