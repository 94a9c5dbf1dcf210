import Stencil.Proofs.Template.Linting
import Stencil.Proofs.Template.RoundTrip

/-!
# Tags that the check finds unclosed

The check looks for the closing tag of an opening tag in the whole template, while reading looks for
it only in the body in which the opening tag stands. A closing tag that is found in a body is found
in the whole template as well, so the check finds no more unclosed tags of a kind than reading
reports. Both look at each opening tag once.
-/

namespace Stencil.Template

/-- Whether an opening tag of a kind stands at the front of a text and begins no block. -/
def isUnclosed (kind : BlockKind) (s : Text) : Bool :=
  (readOpener? kind s).isSome && (readBlock? kind s).isNone

/-- At how many places of a text an opening tag of a kind stands that begins no block. -/
def countUnclosed (kind : BlockKind) (s : Text) : Nat := countPlaces (isUnclosed kind) s

/-- Whether a mistake is an unclosed tag of a kind. -/
def Mistake.isUnclosed (kind : BlockKind) (m : Mistake) : Bool :=
  m.rule == .unmatchedBlock &&
    m.message == kind.shown '#' ++ " opened here is never closed".toList

/-- Whether a diagnostic is about an opening tag of a kind. -/
def Diagnostic.isOpener (kind : BlockKind) (d : Diagnostic) : Bool :=
  (readOpener? kind d.detail).any fun (_, rest) => rest.isEmpty

variable {kind : BlockKind}

/-! ### Unclosed tags in a text -/

/-- Where no opening tag of a kind is read, none is unclosed. -/
theorem isUnclosed_eq_false {s : Text} (h : readOpener? kind s = none) :
    isUnclosed kind s = false := by
  rw [isUnclosed, h, Option.isSome_none, Bool.false_and]

/-- The unclosed tags at the front of a text and behind its first character. -/
theorem countUnclosed_cons (kind : BlockKind) (c : Char) (r : Text) :
    countUnclosed kind (c :: r) =
      (isUnclosed kind (c :: r)).toNat + countUnclosed kind r := by
  rw [countUnclosed, countPlaces]
  cases isUnclosed kind (c :: r) <;> rfl

/-- Text in which no mark of blocks begins has no unclosed tags. -/
theorem countUnclosed_append_of_avoids {s : Text} (hs : Text.Avoids blockMark s) (t : Text) :
    countUnclosed kind (s ++ t) = countUnclosed kind t := by
  refine countPlaces_append_of_avoids (fun u hunclosed => ?_) hs t
  by_contra hmark
  rw [isUnclosed_eq_false (readOpener?_eq_none hmark kind)] at hunclosed
  contradiction

/-- The unclosed tags of a text that begins with an opening tag. -/
theorem countUnclosed_opener {other : BlockKind} {path opener : Text}
    (hopener : SpellsOpener other path opener) (hpath : IsPath path) (t : Text) :
    countUnclosed kind (opener ++ t) =
      (isUnclosed kind (opener ++ t)).toNat + countUnclosed kind t := by
  obtain ⟨tail, rfl, htail⟩ := hopener.exists_tail hpath
  rw [List.cons_append, countUnclosed_cons,
    countUnclosed_append_of_avoids (htail.of_prefix ⟨['#'], rfl⟩)]

/-- A tag that is unclosed in front of two opening braces is unclosed in the text up to them. -/
theorem isUnclosed_of_append {s y : Text} (hs : s ≠ []) (hy : openBraces <+: y)
    (h : isUnclosed kind (s ++ y)) : isUnclosed kind s := by
  simp only [isUnclosed, Bool.and_eq_true, Option.isNone_iff_eq_none,
    isSome_readOpener?_append hs hy] at h ⊢
  obtain ⟨hopener, hnone⟩ := h
  refine ⟨hopener, ?_⟩
  rw [Option.eq_none_iff_forall_ne_some]
  intro b hblock
  rw [readBlock?_append_rest hblock] at hnone
  contradiction

/-- A text in front of two opening braces has no more unclosed tags than it has by itself. -/
theorem countUnclosed_append_le {y : Text} (hy : openBraces <+: y) (s : Text) :
    countUnclosed kind (s ++ y) ≤ countUnclosed kind s + countUnclosed kind y := by
  induction s with
  | nil => simp
  | cons c s ih =>
    have hfront : (isUnclosed kind (c :: (s ++ y))).toNat ≤ (isUnclosed kind (c :: s)).toNat := by
      cases hlong : isUnclosed kind (c :: (s ++ y)) with
      | false => exact Nat.zero_le _
      | true => rw [isUnclosed_of_append (List.cons_ne_nil c s) hy hlong]
    rw [List.cons_append, countUnclosed_cons, countUnclosed_cons]
    omega

/-- No more tags are unclosed in a body than in its two parts. -/
theorem Block.countUnclosed_body_le (b : Block) :
    countUnclosed kind b.body ≤ countUnclosed kind b.parts.1 + countUnclosed kind b.parts.2 := by
  rcases b.body_cases with ⟨-, hbody⟩ | hbody
  · rw [← hbody]
    exact Nat.le_add_right ..
  · have havoids : Text.Avoids blockMark elseTag := avoids_elseTag [] (by decide)
    have hle : countUnclosed kind (b.parts.1 ++ (elseTag ++ b.parts.2)) ≤
        countUnclosed kind b.parts.1 + countUnclosed kind (elseTag ++ b.parts.2) :=
      countUnclosed_append_le (openBraces_prefix_elseTag _) _
    rwa [countUnclosed_append_of_avoids havoids, ← List.append_assoc, ← hbody] at hle

/-- No more tags are unclosed in a text that begins with a block than in the two parts of its body
and behind it. -/
theorem countUnclosed_block_le {b : Block} (hb : b.Complete) (r : Text) :
    countUnclosed kind (b.source ++ r) ≤
      countUnclosed kind b.parts.1 + countUnclosed kind b.parts.2 + countUnclosed kind r := by
  have hfront : isUnclosed kind (b.source ++ r) = false := by
    by_cases hkind : b.kind = kind
    · have hread : readBlock? kind (b.source ++ r) = some { b with rest := r } :=
        hkind ▸ readBlock?_append hb.opener hb.path hb.body r
      rw [isUnclosed, hread, Option.isNone_some, Bool.and_false]
    · apply isUnclosed_eq_false
      rw [Block.source, List.append_assoc, List.append_assoc]
      exact readOpener?_opener_of_ne hb.opener hb.path (Ne.symm hkind) _
  have hbody : countUnclosed kind b.body ≤
      countUnclosed kind b.parts.1 + countUnclosed kind b.parts.2 := b.countUnclosed_body_le
  have havoids : Text.Avoids blockMark b.kind.closeTag := avoids_closeTag [] b.kind (by decide)
  have hrest : countUnclosed kind (b.body ++ (b.kind.closeTag ++ r)) ≤
      countUnclosed kind b.body + countUnclosed kind (b.kind.closeTag ++ r) :=
    countUnclosed_append_le (openBraces_prefix_closeTag b.kind r) b.body
  rw [countUnclosed_append_of_avoids havoids] at hrest
  rw [Block.source, List.append_assoc, List.append_assoc] at hfront ⊢
  rw [countUnclosed_opener hb.opener hb.path, hfront, Bool.toNat_false]
  omega

/-! ### Reading -/

/-- An opening tag is one of its own kind only. -/
theorem isOpener_unmatchedBlock {other : BlockKind} {path opener : Text}
    (hopener : SpellsOpener other path opener) (hpath : IsPath path) :
    (Diagnostic.unmatchedBlock other opener).isOpener kind = decide (kind = other) := by
  have hread := readOpener?_append hopener hpath []
  rw [List.append_nil] at hread
  by_cases hkind : kind = other
  · subst hkind
    simp [Diagnostic.isOpener, Diagnostic.detail, hread]
  · have hnone := readOpener?_opener_of_ne hopener hpath hkind []
    rw [List.append_nil] at hnone
    simp [Diagnostic.isOpener, Diagnostic.detail, hnone, hkind]

/-- An unclosed tag at the front of a text is the opening tag that stands there. -/
theorem isUnclosed_opener_le {other : BlockKind} {path opener : Text}
    (hopener : SpellsOpener other path opener) (hpath : IsPath path) (t : Text) :
    (isUnclosed kind (opener ++ t)).toNat ≤
      ((Diagnostic.unmatchedBlock other opener).isOpener kind).toNat := by
  rw [isOpener_unmatchedBlock hopener hpath]
  by_cases hkind : kind = other
  · simpa [hkind] using Bool.toNat_le _
  · rw [isUnclosed_eq_false (readOpener?_opener_of_ne hopener hpath hkind t)]
    exact Nat.zero_le _

/-- Reading reports at least as many opening tags of a kind as are unclosed in the text. -/
theorem countUnclosed_le (s : Text) :
    countUnclosed kind s ≤ (parseBare s).diagnostics.countP (Diagnostic.isOpener kind) := by
  induction s using reading_induction with
  | nil => exact Nat.zero_le _
  | plain c r hread ih =>
    rw [countUnclosed_cons, isUnclosed_eq_false (readOpener?_of_read_plain hread kind),
      parseBare_plain hread, diagnostics_addText, Bool.toNat_false, Nat.zero_add]
    exact ih
  | inline s node rest hread ih =>
    obtain ⟨tag, htag, rfl⟩ := spellsInline_of_read hread
    have havoids : Text.Avoids blockMark tag := htag.avoids (by decide)
    rw [countUnclosed_append_of_avoids havoids, parseBare_inline hread]
    exact ih
  | unmatched s other opener rest hread ih =>
    obtain ⟨path, hpath, hopener, rfl⟩ := spellsOpener_of_read_unmatched hread
    have hfront : (isUnclosed kind (opener ++ rest)).toNat ≤
        ((Diagnostic.unmatchedBlock other opener).isOpener kind).toNat :=
      isUnclosed_opener_le hopener hpath rest
    have hreport : (parseBare (opener ++ rest)).diagnostics =
        .unmatchedBlock other opener :: (parseBare rest).diagnostics := by
      rw [parseBare_unmatched hread, ← diagnostics_addText opener (parseBare rest)]
      rfl
    rw [countUnclosed_opener hopener hpath, hreport, List.countP_cons]
    cases hother : (Diagnostic.unmatchedBlock other opener).isOpener kind <;>
      simp only [hother, Bool.toNat_true, Bool.toNat_false, if_true] at hfront ⊢ <;> omega
  | block s b hread hfirst hsecond hrest =>
    have hle : countUnclosed kind (b.source ++ b.rest) ≤ countUnclosed kind b.parts.1 +
        countUnclosed kind b.parts.2 + countUnclosed kind b.rest :=
      countUnclosed_block_le (Block.complete_of_read hread) b.rest
    rw [← Directive.eq_of_read_block hread] at hle
    rw [parseBare_block hread]
    simp only [Parsed.report, Parsed.addNode, List.countP_append]
    omega

/-! ### The check -/

/-- Whether an opening tag begins no block. -/
def Found.isUnmatched : Found → Bool
  | block _ => false
  | unmatched _ => true

/-- The unmatched tags that are found in a text are those at its places. -/
theorem countP_findBlocks (kind : BlockKind) (offset : Nat) (s : Text) :
    (findBlocks kind offset s).countP Found.isUnmatched = countUnclosed kind s := by
  fun_induction findBlocks kind offset s with
  | case1 => rfl
  | case2 offset c r hnone ih =>
    rw [countUnclosed_cons, isUnclosed_eq_false hnone, Bool.toNat_false, Nat.zero_add]
    exact ih
  | case3 offset c r path inside hread hlength found ih =>
    obtain ⟨hpath, opener, hopener, hwhole⟩ := spellsOpener_of_readOpener? hread
    have hfront : isUnclosed kind (c :: r) = found.isUnmatched := by
      rw [isUnclosed, hread, Option.isSome_some, Bool.true_and]
      cases hblock : readBlock? kind (c :: r) <;> simp [found, hblock, Found.isUnmatched]
    have hcount : countUnclosed kind (c :: r) =
        found.isUnmatched.toNat + countUnclosed kind inside := by
      rw [← hfront, hwhole, countUnclosed_opener hopener hpath]
    rw [hcount, List.countP_cons, ih, Nat.add_comm]
    cases found <;> rfl

/-- The kinds have different names in messages. -/
theorem BlockKind.eq_of_shown_eq {other : BlockKind} (h : kind.shown '#' = other.shown '#') :
    kind = other := by
  cases kind <;> cases other <;> simp [shown, word] at h ⊢

/-- Mistakes of other rules are no unclosed tags. -/
theorem countP_isUnclosed_eq_zero {found : List Mistake}
    (h : ∀ m ∈ found, m.rule ≠ .unmatchedBlock) :
    found.countP (Mistake.isUnclosed kind) = 0 := by
  rw [List.countP_eq_zero]
  intro m hm hunclosed
  simp only [Mistake.isUnclosed, Bool.and_eq_true, beq_iff_eq] at hunclosed
  exact h m hm hunclosed.1

/-- The check of a kind finds the unclosed tags of this kind, and none of another one. -/
theorem countP_lintKind (template s : Text) (other : BlockKind) :
    (lintKind template s other).countP (Mistake.isUnclosed kind) =
      if other = kind then countUnclosed kind s else 0 := by
  rw [lintKind, List.countP_append]
  rw [countP_isUnclosed_eq_zero (by intro m hm; split at hm <;> simp_all), Nat.zero_add,
    List.countP_filterMap]
  split
  · next hkind =>
    subst hkind
    rw [← countP_findBlocks other 0 s]
    refine List.countP_congr fun found _ => ?_
    cases found <;> simp [Found.isUnmatched, Mistake.isUnclosed]
  · next hkind =>
    rw [List.countP_eq_zero]
    intro found _ hfound
    cases found with
    | block => contradiction
    | unmatched offset =>
      simp only [Option.map_some, Option.getD_some, Mistake.isUnclosed, Bool.and_eq_true,
        beq_iff_eq] at hfound
      exact hkind (BlockKind.eq_of_shown_eq (List.append_cancel_right hfound.2))

/-- The mistakes of a line are no unclosed tags. -/
theorem rule_of_mem_lintLine {template line : Text} {number : Nat} {m : Mistake}
    (h : m ∈ lintLine template number line) : m.rule ≠ .unmatchedBlock := by
  rcases List.mem_append.mp h with h | h
  · obtain ⟨tag, -, rfl⟩ := List.mem_map.mp h
    exact nofun
  · obtain ⟨⟨needle, message⟩, -, hm⟩ := List.mem_filterMap.mp h
    obtain ⟨-, hm⟩ := Option.ite_none_right_eq_some.mp hm
    obtain rfl := Option.some.inj hm
    exact nofun

/-- The unclosed tags of a kind that the check finds are those of the text without its comments. -/
theorem countP_lint (source template : Text) :
    (lint source template).countP (Mistake.isUnclosed kind) =
      countUnclosed kind (stripComments true source) := by
  rw [lint, (List.mergeSort_perm _ _).countP_eq, List.countP_append, countP_isUnclosed_eq_zero,
    Nat.zero_add]
  swap
  · intro m hm
    obtain ⟨place, -, hplace⟩ := List.mem_flatMap.mp hm
    exact rule_of_mem_lintLine hplace
  simp only [BlockKind.all, List.flatMap_cons, List.flatMap_nil, List.countP_append,
    List.countP_nil, countP_lintKind]
  cases kind <;> simp

/-- The mistakes of the rule on unmatched tags are those of the unmatched tags that are found in the
text with its comments replaced by line breaks. -/
theorem mem_lint_unmatchedBlock_iff {source template : Text} {m : Mistake} :
    m ∈ lint source template ∧ m.rule = .unmatchedBlock ↔
      ∃ kind offset, .unmatched offset ∈ findBlocks kind 0 (stripComments true source) ∧
        m = ⟨template, ((stripComments true source).take offset).count '\n' + 1,
          .unmatchedBlock, kind.shown '#' ++ " opened here is never closed".toList⟩ := by
  rw [lint, List.mem_mergeSort, List.mem_append]
  constructor
  · rintro ⟨hline | hkind, hrule⟩
    · obtain ⟨place, -, hplace⟩ := List.mem_flatMap.mp hline
      exact absurd hrule (rule_of_mem_lintLine hplace)
    · obtain ⟨kind, -, hkind⟩ := List.mem_flatMap.mp hkind
      rcases List.mem_append.mp hkind with hcount | hunmatched
      · split at hcount <;> simp_all
      · obtain ⟨found, hfound, hm⟩ := List.mem_filterMap.mp hunmatched
        cases found with
        | block => contradiction
        | unmatched offset => exact ⟨kind, offset, hfound, (Option.some.inj hm).symm⟩
  · rintro ⟨kind, offset, hfound, rfl⟩
    refine ⟨Or.inr (List.mem_flatMap.mpr ⟨kind, by cases kind <;> decide, ?_⟩), rfl⟩
    exact List.mem_append_right _ (List.mem_filterMap.mpr ⟨_, hfound, rfl⟩)

/-- A mistake of the rule on unclosed tags is an unclosed tag of some kind. -/
theorem exists_isUnclosed_of_mem_lint {source template : Text} {m : Mistake}
    (h : m ∈ lint source template) (hrule : m.rule = .unmatchedBlock) :
    ∃ kind, m.isUnclosed kind := by
  obtain ⟨kind, offset, -, rfl⟩ := mem_lint_unmatchedBlock_iff.mp ⟨h, hrule⟩
  exact ⟨kind, by simp [Mistake.isUnclosed]⟩

/-- **The check reports no tag without reason.** In a template without comments, the check finds at
most as many unclosed tags of a kind as reading reports opening tags of this kind. If reading
reports nothing, the check finds no unclosed tag. -/
theorem countP_isUnclosed_lint_le {source : Text} (hcomment : ¬ commentOpen <:+: source)
    (template : Text) (kind : BlockKind) :
    (lint source template).countP (Mistake.isUnclosed kind) ≤
        (parse source).diagnostics.countP (Diagnostic.isOpener kind) ∧
      ((parse source).diagnostics = [] →
        ∀ m ∈ lint source template, m.rule ≠ .unmatchedBlock) := by
  have hle (kind : BlockKind) : (lint source template).countP (Mistake.isUnclosed kind) ≤
      (parse source).diagnostics.countP (Diagnostic.isOpener kind) := by
    rw [countP_lint, parse, stripComments_of_not_infix hcomment,
      stripComments_of_not_infix hcomment]
    exact countUnclosed_le source
  refine ⟨hle kind, fun hclean m hm hrule => ?_⟩
  obtain ⟨other, hother⟩ := exists_isUnclosed_of_mem_lint hm hrule
  have hpos : 0 < (lint source template).countP (Mistake.isUnclosed other) :=
    List.countP_pos_iff.mpr ⟨m, hm, hother⟩
  have hnone := hle other
  rw [hclean, List.countP_nil] at hnone
  omega

/-- Two loops without closing tags, the second one in a conditional, and a loop that opens in the
conditional and closes behind it: the check finds the first two, and reading reports all three. -/
theorem countP_isUnclosed_lint_le_of_crossing :
    let loop := BlockKind.each.plainOpener ['x']
    let source := loop ++ BlockKind.conditional.plainOpener ['y'] ++ loop ++ loop
      ++ BlockKind.conditional.closeTag ++ BlockKind.each.closeTag
    ¬ commentOpen <:+: source ∧ (lint source []).countP (Mistake.isUnclosed .each) = 2 ∧
      (parse source).diagnostics.countP (Diagnostic.isOpener .each) = 3 ∧
      (lint source []).countP (Mistake.isUnclosed .each) ≤
        (parse source).diagnostics.countP (Diagnostic.isOpener .each) := by
  intro loop source
  have hcomment : ¬ commentOpen <:+: source := by decide +kernel
  refine ⟨hcomment, ?_, by decide +kernel,
    (countP_isUnclosed_lint_le hcomment [] .each).1⟩
  rw [countP_lint]
  decide +kernel

end Stencil.Template
