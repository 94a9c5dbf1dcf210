import Stencil.Proofs.Template.WellNested

/-!
# Blocks that cross

The closing tag of a block is looked for among the tags of its own kind, so a block may open inside
of another one and close behind it. In the places of the blocks of a text this is seen as two spans
that cross. Nothing is reported when a text is read exactly if every opening tag begins a block and
no two blocks cross.
-/

namespace Stencil.Template

/-! ### Places of blocks -/

/-- One block opens inside of another one and does not end before it. -/
def Span.Crosses (outer inner : Span) : Prop :=
  outer.start < inner.start ∧ inner.start < outer.stop ∧ outer.stop ≤ inner.stop

/-- Two blocks of a text cross. -/
def BlocksCross (t : Text) : Prop :=
  ∃ kind other a b, .block a ∈ findBlocks kind 0 t ∧ .block b ∈ findBlocks other 0 t ∧ a.Crosses b

/-- Every opening tag in a text begins a block. -/
def AllMatched (t : Text) : Prop := ∀ kind offset, .unmatched offset ∉ findBlocks kind 0 t

/-- What begins at an opening tag of a kind. -/
def foundAt (kind : BlockKind) (offset : Nat) (s : Text) : Found :=
  match readBlock? kind s with
  | some b => .block (b.span offset offset)
  | none => .unmatched offset

/-- An opening tag begins with two braces. -/
theorem openBraces_prefix_of_readOpener? {kind : BlockKind} {s : Text}
    (h : readOpener? kind s ≠ none) : openBraces <+: s := by
  obtain ⟨⟨path, rest⟩, hread⟩ := Option.ne_none_iff_exists'.mp h
  have hmark : openBraces <+: kind.openMark := ⟨'#' :: kind.word, rfl⟩
  exact hmark.trans (prefix_of_readOpener? hread)

/-- Something is found exactly at the places where an opening tag stands. -/
theorem mem_findBlocks {kind : BlockKind} {offset : Nat} {t : Text} {x : Found} :
    x ∈ findBlocks kind offset t ↔
      ∃ u s, t = u ++ s ∧ readOpener? kind s ≠ none ∧ x = foundAt kind (offset + u.length) s := by
  have hnil : readOpener? kind [] = none := readOpener?_eq_none (by decide) kind
  fun_induction findBlocks kind offset t with
  | case1 =>
    constructor
    · exact fun h => absurd h List.not_mem_nil
    · rintro ⟨u, s, hs, hopener, -⟩
      rw [(List.nil_eq_append_iff.mp hs).2] at hopener
      exact absurd hnil hopener
  | case2 offset c r hnone ih =>
    refine ih.trans ⟨?_, ?_⟩
    · rintro ⟨u, s, rfl, hopener, rfl⟩
      refine ⟨c :: u, s, rfl, hopener, ?_⟩
      rw [List.length_cons, Nat.add_right_comm, Nat.add_assoc]
    · rintro ⟨u, s, hs, hopener, rfl⟩
      cases u with
      | nil =>
        rw [List.nil_append] at hs
        rw [← hs] at hopener
        exact absurd hnone hopener
      | cons d u =>
        refine ⟨u, s, (List.cons.inj hs).2, hopener, ?_⟩
        rw [List.length_cons, Nat.add_right_comm, Nat.add_assoc]
  | case3 offset c r path inside hread hlength found ih =>
    obtain ⟨hpath, opener, hopener, hwhole⟩ := spellsOpener_of_readOpener? hread
    obtain ⟨tail, rfl, htail⟩ := hopener.exists_tail hpath
    have hskip : (c :: r).length - inside.length = ('\x7b' :: tail).length := by
      rw [hwhole, List.length_append, Nat.add_sub_cancel]
    refine (List.mem_cons.trans (or_congr_right ih)).trans ⟨?_, ?_⟩
    · rintro (rfl | ⟨u, s, rfl, hs, rfl⟩)
      · exact ⟨[], c :: r, rfl, by simp [hread], rfl⟩
      · refine ⟨'\x7b' :: tail ++ u, s, by rw [hwhole, List.append_assoc], hs, ?_⟩
        rw [hskip, List.length_append, Nat.add_assoc]
    · rintro ⟨u, s, hs, hplace, rfl⟩
      by_cases hu : u = []
      · subst hu
        rw [List.nil_append] at hs
        subst hs
        exact Or.inl rfl
      · -- no opening tag stands inside of another one
        obtain ⟨v, rfl⟩ := prefix_of_openBraces_follow htail hu
          (openBraces_prefix_of_readOpener? hplace) (hwhole.symm.trans hs)
        refine Or.inr ⟨v, s, ?_, hplace, ?_⟩
        · rw [hwhole, List.append_assoc] at hs
          exact List.append_cancel_left hs
        · rw [hskip, List.length_append, Nat.add_assoc]

/-- What is found is unmatched where no block begins. -/
theorem unmatched_mem_findBlocks {kind : BlockKind} {t : Text} :
    (∃ offset, .unmatched offset ∈ findBlocks kind 0 t) ↔
      ∃ s, s <:+ t ∧ readOpener? kind s ≠ none ∧ readBlock? kind s = none := by
  constructor
  · rintro ⟨offset, hmem⟩
    obtain ⟨u, s, rfl, hopener, hfound⟩ := mem_findBlocks.mp hmem
    refine ⟨s, List.suffix_append u s, hopener, ?_⟩
    cases hread : readBlock? kind s with
    | none => rfl
    | some b => simp [foundAt, hread] at hfound
  · rintro ⟨s, ⟨u, rfl⟩, hopener, hnone⟩
    refine ⟨0 + u.length, mem_findBlocks.mpr ⟨u, s, rfl, hopener, ?_⟩⟩
    simp only [foundAt, hnone]

/-- The blocks that are found are those that are read at the places of a text. -/
theorem block_mem_findBlocks {kind : BlockKind} {t : Text} {a : Span} :
    .block a ∈ findBlocks kind 0 t ↔
      ∃ u s b, t = u ++ s ∧ readBlock? kind s = some b ∧ a = b.span u.length u.length := by
  constructor
  · intro hmem
    obtain ⟨u, s, rfl, hopener, hfound⟩ := mem_findBlocks.mp hmem
    cases hread : readBlock? kind s with
    | none => simp [foundAt, hread] at hfound
    | some b =>
      simp only [foundAt, hread, Nat.zero_add, Found.block.injEq] at hfound
      exact ⟨u, s, b, rfl, hread, hfound⟩
  · rintro ⟨u, s, b, rfl, hread, rfl⟩
    have hopener : readOpener? kind s ≠ none := by
      intro hnone
      simp [readBlock?, hnone] at hread
    refine mem_findBlocks.mpr ⟨u, s, rfl, hopener, ?_⟩
    simp only [foundAt, hread, Nat.zero_add]

/-- Where an opening tag of a kind stands, the block that is read is of this kind. -/
theorem readBlock?_of_readAnyBlock? {kind : BlockKind} {s : Text} {b : Block}
    (hopener : readOpener? kind s ≠ none) (h : readAnyBlock? s = some b) :
    readBlock? kind s = some b := by
  obtain ⟨hcomplete, hwhole⟩ := readAnyBlock?_eq_some_iff.mp h
  have hkind : b.kind = kind := by
    by_contra hne
    apply hopener
    rw [hwhole, Block.source, List.append_assoc, List.append_assoc]
    exact readOpener?_opener_of_ne hcomplete.opener hcomplete.path (Ne.symm hne) _
  exact readBlock?_eq_some_iff.mpr ⟨hkind, hcomplete, hwhole⟩

/-- The block of a kind at the front of a text is the one that is read there. -/
theorem readAnyBlock?_of_readBlock? {kind : BlockKind} {s : Text} {b : Block}
    (h : readBlock? kind s = some b) : readAnyBlock? s = some b :=
  readAnyBlock?_eq_some_iff.mpr (readBlock?_eq_some_iff.mp h).2

/-! ### Nesting and crossing -/

/-- Two blocks that are read in a text cross if the second one begins inside of the first one and
does not end farther from the end of the text. -/
theorem crosses_span_iff {u v s t : Text} {a b : Block} (h : u ++ s = v ++ t)
    (ha : s = a.source ++ a.rest) (hb : t = b.source ++ b.rest) :
    (a.span u.length u.length).Crosses (b.span v.length v.length) ↔
      t.length < s.length ∧ a.rest.length < t.length ∧ b.rest.length ≤ a.rest.length := by
  have hlength := congrArg List.length h
  have hs := congrArg List.length ha
  have ht := congrArg List.length hb
  simp only [List.length_append] at hlength hs ht
  simp only [Span.Crosses, Block.span]
  omega

/-- Blocks that cross, by what is read at the places of a text. -/
theorem blocksCross_iff {t : Text} :
    BlocksCross t ↔ ∃ s s' a b, s <:+ t ∧ s' <:+ s ∧ readAnyBlock? s = some a ∧
      readAnyBlock? s' = some b ∧ s'.length < s.length ∧ a.rest.length < s'.length ∧
        b.rest.length ≤ a.rest.length := by
  constructor
  · rintro ⟨kind, other, a, b, ha, hb, hcross⟩
    obtain ⟨u, s, a, rfl, hs, rfl⟩ := block_mem_findBlocks.mp ha
    obtain ⟨u', s', b, htext, hs', rfl⟩ := block_mem_findBlocks.mp hb
    rw [crosses_span_iff htext (eq_of_readBlock? hs) (eq_of_readBlock? hs')] at hcross
    have hsuffix : s' <:+ s :=
      List.suffix_of_suffix_length_le ⟨u', htext.symm⟩ ⟨u, rfl⟩ hcross.1.le
    exact ⟨s, s', a, b, ⟨u, rfl⟩, hsuffix, readAnyBlock?_of_readBlock? hs,
      readAnyBlock?_of_readBlock? hs', hcross⟩
  · rintro ⟨s, s', a, b, ⟨u, rfl⟩, ⟨v, rfl⟩, ha, hb, hcross⟩
    obtain ⟨kind, -, hs⟩ := List.exists_of_findSome?_eq_some ha
    obtain ⟨other, -, hs'⟩ := List.exists_of_findSome?_eq_some hb
    have htext : u ++ (v ++ s') = u ++ v ++ s' := (List.append_assoc ..).symm
    refine ⟨kind, other, _, _, block_mem_findBlocks.mpr ⟨u, v ++ s', a, rfl, hs, rfl⟩,
      block_mem_findBlocks.mpr ⟨u ++ v, s', b, htext, hs', rfl⟩, ?_⟩
    exact (crosses_span_iff htext (eq_of_readBlock? hs) (eq_of_readBlock? hs')).mpr hcross

/-- Every opening tag in a text begins a block exactly if a block is read wherever one stands. -/
theorem allMatched_iff {t : Text} :
    AllMatched t ↔ ∀ s, s <:+ t → ¬ NoOpener s → ∃ b, readAnyBlock? s = some b := by
  constructor
  · intro h s hs hopener
    obtain ⟨kind, hkind⟩ := not_forall.mp hopener
    cases hread : readBlock? kind s with
    | some b => exact ⟨b, readAnyBlock?_of_readBlock? hread⟩
    | none =>
      obtain ⟨offset, hmem⟩ := unmatched_mem_findBlocks.mpr ⟨s, hs, hkind, hread⟩
      exact absurd hmem (h kind offset)
  · intro h kind offset hmem
    obtain ⟨s, hs, hopener, hnone⟩ := unmatched_mem_findBlocks.mp ⟨offset, hmem⟩
    obtain ⟨b, hb⟩ := h s hs fun hno => hopener (hno kind)
    rw [readBlock?_of_readAnyBlock? hopener hb] at hnone
    contradiction

/-- Blocks nest in a text exactly if every opening tag begins a block and no two blocks cross. -/
theorem wellNested_iff {t : Text} : WellNested t ↔ AllMatched t ∧ ¬ BlocksCross t := by
  rw [allMatched_iff, blocksCross_iff]
  constructor
  · intro h
    have hfront {s : Text} (hs : s <:+ t) (hopener : ¬ NoOpener s) :
        ∃ c r b, s = c :: r ∧ readAnyBlock? s = some b ∧ Confined b.rest.length r := by
      have hnests := h s hs
      cases s with
      | nil => exact absurd (noOpener_of_not_blockMark (by decide)) hopener
      | cons c r =>
        obtain ⟨b, hb, hconfined⟩ := hnests.resolve_left hopener
        exact ⟨c, r, b, rfl, hb, hconfined⟩
    constructor
    · intro s hs hopener
      obtain ⟨c, r, b, -, hb, -⟩ := hfront hs hopener
      exact ⟨b, hb⟩
    · rintro ⟨s, s', a, b, hs, hs', ha, hb, hshort, hinside, hcross⟩
      obtain ⟨c, r, a', rfl, ha', hconfined⟩ := hfront hs (not_noOpener_of_readAnyBlock? ha)
      obtain rfl : a' = a := Option.some.inj (ha'.symm.trans ha)
      have hlater : s' <:+ r := by
        rcases List.suffix_cons_iff.mp hs' with rfl | hlater
        · exact absurd hshort (lt_irrefl _)
        · exact hlater
      exact absurd (hconfined s' hlater hinside b hb) (not_lt.mpr hcross)
  · rintro ⟨hmatched, hcross⟩ s hs
    cases s with
    | nil => trivial
    | cons c r =>
      by_cases hopener : NoOpener (c :: r)
      · exact Or.inl hopener
      · obtain ⟨a, ha⟩ := hmatched _ hs hopener
        refine Or.inr ⟨a, ha, fun s' hs' hinside b hb => ?_⟩
        by_contra hends
        have hshort : s'.length < (c :: r).length := Nat.lt_succ_of_le hs'.length_le
        exact hcross ⟨c :: r, s', a, b, hs, hs'.trans (List.suffix_cons c r), ha, hb, hshort,
          hinside, not_lt.mp hends⟩

/-- A text is read without a report exactly if every opening tag begins a block and no two blocks
cross. -/
theorem diagnostics_parseBare_eq_nil_iff_matched (s : Text) :
    (parseBare s).diagnostics = [] ↔ AllMatched s ∧ ¬ BlocksCross s :=
  (diagnostics_parseBare_eq_nil_iff s).trans wellNested_iff

end Stencil.Template
