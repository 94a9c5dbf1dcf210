import Stencil.Proofs.Template.Reading

/-!
# Blocks inside of each other

A body is read by itself, so an opening tag in it is reported unless its closing tag stands in the
same body. Nothing is reported for a text exactly if every opening tag in it begins a block, and
what opens inside of a block ends inside of it too. Tags do not overlap, so this can be told place
by place: a block that is read in a body is the one that is read in the whole text.
-/

namespace Stencil.Template

/-! ### Texts without opening tags -/

/-- No opening tag stands at the front of a text. -/
def NoOpener (s : Text) : Prop := ∀ kind, readOpener? kind s = none

/-- Where no mark of blocks stands, no opening tag stands. -/
theorem noOpener_of_not_blockMark {s : Text} (h : ¬ blockMark <+: s) : NoOpener s :=
  readOpener?_eq_none h

/-- Where an opening tag is spelled, one is read. -/
theorem not_noOpener_append {kind : BlockKind} {path opener : Text} (hpath : IsPath path)
    (hopener : SpellsOpener kind path opener) (rest : Text) : ¬ NoOpener (opener ++ rest) := by
  intro h
  have hnone := h kind
  rw [readOpener?_append hopener hpath] at hnone
  contradiction

/-- Where a block is read, its opening tag stands. -/
theorem not_noOpener_of_readAnyBlock? {s : Text} {b : Block} (h : readAnyBlock? s = some b) :
    ¬ NoOpener s := by
  obtain ⟨hcomplete, rfl⟩ := readAnyBlock?_eq_some_iff.mp h
  rw [Block.source, List.append_assoc, List.append_assoc]
  exact not_noOpener_append hcomplete.path hcomplete.opener _

/-! ### Tags do not overlap -/

/-- Behind the first brace of a closing tag no two braces open. -/
theorem exists_tail_closeTag (kind : BlockKind) :
    ∃ tail, kind.closeTag = '\x7b' :: tail ∧ Text.Avoids openBraces tail :=
  ⟨_, rfl, avoids_openBraces_tail (not_mem_closeTag kind)⟩

/-- A tag that begins in a text with two opening braces behind it ends before them. -/
theorem prefix_of_openBraces_follow {tail s x y : Text} (htail : Text.Avoids openBraces tail)
    (hs : s ≠ []) (hy : openBraces <+: y) (h : '\x7b' :: tail ++ x = s ++ y) :
    '\x7b' :: tail <+: s := by
  rcases List.append_eq_append_iff.mp h with ⟨u, rfl, -⟩ | ⟨u, htag, rfl⟩
  · exact List.prefix_append ..
  · obtain ⟨c, s, rfl⟩ := List.exists_cons_of_ne_nil hs
    cases u with
    | nil => exact ⟨[], by rw [htag, List.append_nil, List.append_nil]⟩
    | cons d u =>
      -- the two braces would open inside of the tag
      rw [(List.cons.inj htag).2] at htail
      exact absurd hy (htail.of_append.1 x)

/-- A tag that begins in a text with two opening braces behind it stands in the text. -/
theorem prefix_append_openBraces_iff {tail s y : Text} (htail : Text.Avoids openBraces tail)
    (hs : s ≠ []) (hy : openBraces <+: y) : '\x7b' :: tail <+: s ++ y ↔ '\x7b' :: tail <+: s := by
  refine ⟨fun ⟨x, hx⟩ => prefix_of_openBraces_follow htail hs hy hx, fun h => ?_⟩
  exact h.trans (List.prefix_append s y)

/-- Whether an opening tag of a kind stands in front of two opening braces can be told from the text
up to them. -/
theorem isSome_readOpener?_append {kind : BlockKind} {s y : Text} (hs : s ≠ [])
    (hy : openBraces <+: y) :
    (readOpener? kind (s ++ y)).isSome = (readOpener? kind s).isSome := by
  rw [Bool.eq_iff_iff, Option.isSome_iff_exists, Option.isSome_iff_exists]
  constructor
  · rintro ⟨⟨path, rest⟩, hread⟩
    obtain ⟨hpath, opener, hopener, hwhole⟩ := spellsOpener_of_readOpener? hread
    obtain ⟨t, rfl⟩ : opener <+: s := by
      obtain ⟨tail, rfl, htail⟩ := hopener.exists_tail hpath
      exact prefix_of_openBraces_follow htail hs hy hwhole.symm
    exact ⟨_, readOpener?_append hopener hpath t⟩
  · rintro ⟨⟨path, rest⟩, hread⟩
    obtain ⟨hpath, opener, hopener, rfl⟩ := spellsOpener_of_readOpener? hread
    rw [List.append_assoc]
    exact ⟨_, readOpener?_append hopener hpath _⟩

/-- An opening tag that stands in front of two opening braces stands in the text up to them. -/
theorem noOpener_append_iff {s y : Text} (hs : s ≠ []) (hy : openBraces <+: y) :
    NoOpener (s ++ y) ↔ NoOpener s := by
  simp only [NoOpener, ← Option.isNone_iff_eq_none, ← Option.isSome_eq_false_iff,
    isSome_readOpener?_append hs hy]

/-- A closing tag begins with two braces. -/
theorem openBraces_prefix_closeTag (kind : BlockKind) (r : Text) :
    openBraces <+: kind.closeTag ++ r := by
  rw [closeTag_eq, List.append_assoc]
  exact List.prefix_append ..

/-- The tag between two bodies begins with two braces. -/
theorem openBraces_prefix_elseTag (t : Text) : openBraces <+: elseTag ++ t := ⟨_, rfl⟩

/-- Two closing tags in a text are the same one, or one of them begins behind the other. -/
theorem closeTag_append_eq {kind other : BlockKind} {x u y : Text}
    (h : kind.closeTag ++ x = u ++ (other.closeTag ++ y)) :
    x = y ∨ ∃ v, u = kind.closeTag ++ v ∧ x = v ++ (other.closeTag ++ y) := by
  by_cases hu : u = []
  · subst hu
    obtain rfl : kind = other := BlockKind.eq_of_closeTag_prefix ⟨x, h⟩
    exact Or.inl (List.append_cancel_left h)
  · obtain ⟨tail, htag, htail⟩ := exists_tail_closeTag kind
    obtain ⟨v, rfl⟩ : kind.closeTag <+: u := by
      rw [htag] at h ⊢
      exact prefix_of_openBraces_follow htail hu (openBraces_prefix_closeTag other y) h
    rw [List.append_assoc] at h
    exact Or.inr ⟨v, rfl, List.append_cancel_left h⟩

/-- A block that begins in front of a closing tag and does not end with it or behind it ends in
front of it. -/
theorem readAnyBlock?_of_append_closeTag {s r : Text} {kind : BlockKind} {b : Block} (hs : s ≠ [])
    (h : readAnyBlock? (s ++ (kind.closeTag ++ r)) = some b) (hends : r.length < b.rest.length) :
    ∃ rest, readAnyBlock? s = some { b with rest := rest } ∧
      b.rest = rest ++ (kind.closeTag ++ r) := by
  obtain ⟨hcomplete, heq⟩ := readAnyBlock?_eq_some_iff.mp h
  have hrest : b.rest ≠ r := fun hsame => by simp [hsame] at hends
  simp only [Block.source, List.append_assoc] at heq
  obtain ⟨w, rfl⟩ : b.opener <+: s := by
    obtain ⟨tail, htag, htail⟩ := hcomplete.opener.exists_tail hcomplete.path
    rw [htag] at heq ⊢
    exact prefix_of_openBraces_follow htail hs (openBraces_prefix_closeTag kind r) heq.symm
  rw [List.append_assoc] at heq
  rcases List.append_eq_append_iff.mp (List.append_cancel_left heq) with
    ⟨u, -, hclose⟩ | ⟨u, rfl, hclose⟩
  · -- the tag behind the text would stand in the body
    rcases closeTag_append_eq hclose with hsame | ⟨v, -, hlater⟩
    · exact absurd hsame.symm hrest
    · have hlength := congrArg List.length hlater
      simp only [List.length_append] at hlength
      omega
  · rcases closeTag_append_eq hclose with hsame | ⟨v, rfl, hlater⟩
    · exact absurd hsame hrest
    · refine ⟨v, readAnyBlock?_eq_some_iff.mpr ⟨⟨hcomplete.path, hcomplete.opener, ?_⟩, ?_⟩, hlater⟩
      · exact hcomplete.body
      · simp [Block.source]

/-! ### Nesting -/

/-- Every block that begins more than `limit` characters before the end of a text ends more than
`limit` characters before it too. -/
def Confined (limit : Nat) (t : Text) : Prop :=
  ∀ s, s <:+ t → limit < s.length → ∀ b, readAnyBlock? s = some b → limit < b.rest.length

/-- No opening tag stands at the front of a text, or it begins a block and every block that opens
inside of this one ends inside of it. -/
def Nests : Text → Prop
  | [] => True
  | c :: r => NoOpener (c :: r) ∨ ∃ b, readAnyBlock? (c :: r) = some b ∧ Confined b.rest.length r

/-- Everywhere in a text the blocks nest. -/
def WellNested (t : Text) : Prop := ∀ s, s <:+ t → Nests s

/-- In a text without characters the blocks nest. -/
@[simp] theorem wellNested_nil : WellNested [] := by
  intro s hs
  rw [List.suffix_nil.mp hs]
  trivial

/-- Blocks nest in a text if they do at its front and behind its first character. -/
theorem wellNested_cons {c : Char} {r : Text} :
    WellNested (c :: r) ↔ Nests (c :: r) ∧ WellNested r := by
  simp only [WellNested, List.suffix_cons_iff, or_imp, forall_and, forall_eq]

/-- Blocks are confined in a text if they are at its front and behind its first character. -/
theorem confined_cons {limit : Nat} {c : Char} {r : Text} :
    Confined limit (c :: r) ↔
      (limit < (c :: r).length → ∀ b, readAnyBlock? (c :: r) = some b → limit < b.rest.length) ∧
        Confined limit r := by
  simp only [Confined, List.suffix_cons_iff, or_imp, forall_and, forall_eq]

/-- A character at which no opening tag stands does not matter for nesting. -/
theorem wellNested_cons_of_noOpener {c : Char} {r : Text} (h : NoOpener (c :: r)) :
    WellNested (c :: r) ↔ WellNested r := by
  have hnests : Nests (c :: r) := Or.inl h
  rw [wellNested_cons, and_iff_right hnests]

/-- An opening tag that begins no block does not nest. -/
theorem not_wellNested {s : Text} (hopener : ¬ NoOpener s) (hblock : readAnyBlock? s = none) :
    ¬ WellNested s := by
  intro h
  cases s with
  | nil => exact hopener (noOpener_of_not_blockMark (by decide))
  | cons c r =>
    obtain ⟨b, hb, -⟩ := (wellNested_cons.mp h).1.resolve_left hopener
    rw [hblock] at hb
    contradiction

/-- Where no mark of blocks begins, blocks nest. -/
theorem wellNested_append_of_avoids {s : Text} (hs : Text.Avoids blockMark s) (t : Text) :
    WellNested (s ++ t) ↔ WellNested t := by
  induction s with
  | nil => rfl
  | cons c s ih =>
    rw [List.cons_append, wellNested_cons_of_noOpener (noOpener_of_not_blockMark (hs.1 t)),
      ih hs.2]

/-- Where no mark of blocks begins, blocks are confined. -/
theorem confined_append_of_avoids {limit : Nat} {s : Text} (hs : Text.Avoids blockMark s)
    (t : Text) : Confined limit (s ++ t) ↔ Confined limit t := by
  induction s with
  | nil => rfl
  | cons c s ih =>
    have hnone : readAnyBlock? (c :: (s ++ t)) = none := readAnyBlock?_eq_none (hs.1 t)
    rw [List.cons_append, confined_cons, ih hs.2, hnone]
    simp

/-- Shorter texts are confined. -/
theorem confined_of_length_le {limit : Nat} {t : Text} (h : t.length ≤ limit) :
    Confined limit t := by
  intro s hs hlong
  have := hs.length_le
  omega

/-! ### The body of a block -/

section Body

variable {kind : BlockKind} {r : Text}

/-- A long end of two texts is an end of the first one with the second one. -/
theorem exists_suffix_of_length_le {s t u : Text} (h : s <:+ t ++ u)
    (hlength : u.length ≤ s.length) :
    ∃ v, s = v ++ u ∧ v <:+ t := by
  obtain ⟨v, rfl⟩ := List.suffix_of_suffix_length_le (List.suffix_append t u) h hlength
  exact ⟨v, rfl, ((List.suffix_append_inj_of_length_eq rfl).mp h).1⟩

/-- If no block of a body reaches its closing tag, blocks are confined in the body as they are in
front of this tag. -/
theorem confined_append_closeTag {body : Text}
    (h : Confined r.length (body ++ (kind.closeTag ++ r))) (limit : Nat) :
    Confined (limit + (kind.closeTag ++ r).length) (body ++ (kind.closeTag ++ r)) ↔
      Confined limit body := by
  constructor
  · intro hconfined s hs hlong b hb
    have hwide := hconfined (s ++ (kind.closeTag ++ r))
      ((List.suffix_append_inj_of_length_eq rfl).mpr ⟨hs, rfl⟩) (by simpa using hlong) _
      (readAnyBlock?_append_rest hb _)
    simpa using hwide
  · intro hconfined s hs hlong b hb
    obtain ⟨v, rfl, hv⟩ := exists_suffix_of_length_le hs (by omega)
    have hlimit : limit < v.length := by
      simp only [List.length_append] at hlong
      omega
    have hlonger : r.length < (v ++ (kind.closeTag ++ r)).length := by
      simp only [List.length_append]
      omega
    have hne : v ≠ [] := List.ne_nil_of_length_pos (by omega)
    obtain ⟨rest, hinner, hrest⟩ := readAnyBlock?_of_append_closeTag hne hb (h _ hs hlonger b hb)
    have hinside : limit < rest.length := hconfined v hv hlimit _ hinner
    simp only [hrest, List.length_append]
    omega

/-- What begins at the front of a body nests in front of the closing tag, and does not reach it,
exactly if it nests in the body. -/
theorem nests_append_closeTag {c : Char} {body : Text}
    (h : Confined r.length (body ++ (kind.closeTag ++ r))) :
    ((∀ b, readAnyBlock? (c :: (body ++ (kind.closeTag ++ r))) = some b →
        r.length < b.rest.length) ∧ Nests (c :: (body ++ (kind.closeTag ++ r)))) ↔
      Nests (c :: body) := by
  have hne : c :: body ≠ [] := List.cons_ne_nil c body
  have hopener : NoOpener (c :: (body ++ (kind.closeTag ++ r))) ↔ NoOpener (c :: body) :=
    noOpener_append_iff hne (openBraces_prefix_closeTag kind r)
  by_cases hfront : NoOpener (c :: body)
  · have hwide := hopener.mpr hfront
    refine ⟨fun _ => Or.inl hfront, fun _ => ⟨fun b hb => ?_, Or.inl hwide⟩⟩
    exact absurd hwide (not_noOpener_of_readAnyBlock? hb)
  · have hwide := mt hopener.mp hfront
    constructor
    · rintro ⟨hends, hnests⟩
      obtain ⟨b, hb, hconfined⟩ := hnests.resolve_left hwide
      obtain ⟨rest, hinner, hrest⟩ := readAnyBlock?_of_append_closeTag hne hb (hends b hb)
      rw [hrest, List.length_append, confined_append_closeTag h] at hconfined
      exact Or.inr ⟨_, hinner, hconfined⟩
    · intro hnests
      obtain ⟨b, hb, hconfined⟩ := hnests.resolve_left hfront
      have hread := readAnyBlock?_append_rest hb (kind.closeTag ++ r)
      rw [List.cons_append] at hread
      refine ⟨fun b' hb' => ?_, Or.inr ⟨_, hread, ?_⟩⟩
      · rw [hread] at hb'
        obtain rfl := Option.some.inj hb'
        simp only [List.length_append]
        have hpos : 0 < kind.closeTag.length := List.length_pos_iff.mpr kind.closeTag_ne_nil
        omega
      · rw [List.length_append, confined_append_closeTag h]
        exact hconfined

/-- Blocks nest in front of the closing tag of a block, without reaching it, and behind it exactly
if they nest in the body and behind the tag. -/
theorem wellNested_append_closeTag (body : Text) :
    Confined r.length (body ++ (kind.closeTag ++ r)) ∧
        WellNested (body ++ (kind.closeTag ++ r)) ↔
      WellNested body ∧ WellNested r := by
  have havoids : Text.Avoids blockMark kind.closeTag := avoids_closeTag [] kind (by decide)
  induction body with
  | nil =>
    rw [List.nil_append, confined_append_of_avoids havoids, wellNested_append_of_avoids havoids,
      and_iff_right (confined_of_length_le le_rfl), and_iff_right wellNested_nil]
  | cons c body ih =>
    have hlong : r.length < (c :: (body ++ (kind.closeTag ++ r))).length := by
      simp only [List.length_cons, List.length_append]
      omega
    rw [List.cons_append, confined_cons, wellNested_cons, wellNested_cons,
      forall_prop_of_true hlong]
    constructor
    · rintro ⟨⟨hends, hconfined⟩, hnests, hrest⟩
      obtain ⟨hbody, hr⟩ := ih.mp ⟨hconfined, hrest⟩
      exact ⟨⟨(nests_append_closeTag hconfined).mp ⟨hends, hnests⟩, hbody⟩, hr⟩
    · rintro ⟨⟨hnests, hbody⟩, hr⟩
      obtain ⟨hconfined, hrest⟩ := ih.mpr ⟨hbody, hr⟩
      obtain ⟨hends, hnests⟩ := (nests_append_closeTag hconfined).mpr hnests
      exact ⟨⟨hends, hconfined⟩, hnests, hrest⟩

end Body

/-- Blocks nest in a text that begins with a block exactly if they nest in its body and behind
it. -/
theorem wellNested_block {b : Block} (hb : b.Complete) (r : Text) :
    WellNested (b.source ++ r) ↔ WellNested b.body ∧ WellNested r := by
  obtain ⟨tail, htag, htail⟩ := hb.opener.exists_tail hb.path
  have havoids : Text.Avoids blockMark tail := htail.of_prefix ⟨['#'], rfl⟩
  have hread := hb.readAnyBlock?_append r
  have hsource : b.source ++ r = '\x7b' :: (tail ++ (b.body ++ (b.kind.closeTag ++ r))) := by
    simp [Block.source, htag]
  rw [hsource] at hread ⊢
  have hnests : Nests ('\x7b' :: (tail ++ (b.body ++ (b.kind.closeTag ++ r)))) ↔
      Confined r.length (tail ++ (b.body ++ (b.kind.closeTag ++ r))) := by
    rw [Nests, or_iff_right (not_noOpener_of_readAnyBlock? hread)]
    constructor
    · rintro ⟨b', hb', hconfined⟩
      rw [hread] at hb'
      rwa [← Option.some.inj hb'] at hconfined
    · exact fun hconfined => ⟨_, hread, hconfined⟩
  rw [wellNested_cons, hnests, confined_append_of_avoids havoids,
    wellNested_append_of_avoids havoids, wellNested_append_closeTag]

/-! ### Reading -/

/-- A mark of blocks that begins no opening tag does not matter for nesting. -/
theorem wellNested_blockMark {s : Text} (h : NoOpener (blockMark ++ s)) :
    WellNested (blockMark ++ s) ↔ WellNested s := by
  have havoids : Text.Avoids blockMark ['\x7b', '#'] := by
    simp [Text.Avoids, blockMark, List.cons_prefix_cons]
  exact (wellNested_cons_of_noOpener h).trans (wellNested_append_of_avoids havoids s)

/-- Blocks nest in a body exactly if they nest in its two parts. -/
theorem wellNested_splitElse? {s before after : Text}
    (h : splitElse? elseTag s = some (before, after)) :
    WellNested s ↔ WellNested before ∧ WellNested after := by
  fun_induction splitElse? elseTag s generalizing before after with
  | case1 hempty => exact absurd hempty (by decide)
  | case2 => contradiction
  | case3 c r hm b hb _ _ ih =>
    obtain ⟨⟨before, after⟩, hsplit, hparts⟩ := Option.map_eq_some_iff.mp h
    obtain ⟨rfl, rfl⟩ := Prod.mk.inj hparts
    obtain ⟨hcomplete, hwhole⟩ := readAnyBlock?_eq_some_iff.mp hb
    rw [hwhole, wellNested_block hcomplete, wellNested_block hcomplete, ih hsplit, and_assoc]
  | case4 c r hm hb ih =>
    obtain ⟨⟨before, after⟩, hsplit, hparts⟩ := Option.map_eq_some_iff.mp h
    obtain ⟨rfl, rfl⟩ := Prod.mk.inj hparts
    have hmark : c :: r = blockMark ++ r.drop (blockMark.length - 1) :=
      cons_eq_append_drop (by decide) hm
    have hwhole : c :: r = blockMark ++ before ++ (elseTag ++ after) := by
      rw [hmark, eq_of_splitElse? hsplit]
      simp only [List.append_assoc]
    have hopener : NoOpener (c :: r) ↔ NoOpener (blockMark ++ before) := by
      rw [hwhole]
      exact noOpener_append_iff (by simp [blockMark]) ⟨_, rfl⟩
    by_cases hfront : NoOpener (blockMark ++ before)
    · rw [wellNested_blockMark hfront, ← ih hsplit, hmark]
      rw [hmark] at hopener
      exact wellNested_blockMark (hopener.mpr hfront)
    · have hnone : readAnyBlock? (blockMark ++ before) = none := by
        rw [Option.eq_none_iff_forall_ne_some]
        intro b hread
        rw [hwhole, readAnyBlock?_append_rest hread] at hb
        contradiction
      have hbefore := not_wellNested hfront hnone
      have hall := not_wellNested (mt hopener.mp hfront) hb
      exact ⟨fun hnested => absurd hnested hall, fun hnested => absurd hnested.1 hbefore⟩
  | case5 c r hm rest hrest =>
    obtain ⟨rfl, rfl⟩ := Prod.mk.inj (Option.some.inj h)
    have havoids : Text.Avoids blockMark elseTag := avoids_elseTag [] (by decide)
    rw [← List.append_eq_of_isPrefixOf?_eq_some hrest,
      wellNested_append_of_avoids havoids, and_iff_right wellNested_nil]
  | case6 c r hm hrest ih =>
    obtain ⟨⟨before, after⟩, hsplit, hparts⟩ := Option.map_eq_some_iff.mp h
    obtain ⟨rfl, rfl⟩ := Prod.mk.inj hparts
    have hmark : ¬ blockMark <+: c :: r := by rwa [List.isPrefixOf_iff_prefix] at hm
    have hwhole : c :: r = c :: before ++ (elseTag ++ after) := by
      rw [eq_of_splitElse? hsplit]
      simp
    have hbefore : ¬ blockMark <+: c :: before := by
      intro hbegin
      rw [hwhole] at hmark
      exact hmark (hbegin.trans (List.prefix_append ..))
    rw [wellNested_cons_of_noOpener (noOpener_of_not_blockMark hmark),
      wellNested_cons_of_noOpener (noOpener_of_not_blockMark hbefore), ih hsplit]

/-- Blocks nest in a body exactly if they nest in the parts that are read. -/
theorem Block.wellNested_parts (b : Block) :
    WellNested b.body ↔ WellNested b.parts.1 ∧ WellNested b.parts.2 := by
  have hwhole : WellNested b.body ↔ WellNested b.body ∧ WellNested [] :=
    (and_iff_left wellNested_nil).symm
  obtain ⟨kind, path, opener, body, rest⟩ := b
  cases kind with
  | conditional =>
    rw [parts_conditional]
    cases hsplit : splitElse? elseTag body with
    | none => exact hwhole
    | some parts => exact wellNested_splitElse? hsplit
  | _ => exact hwhole

/-- Nothing is reported exactly for the texts in which blocks nest. -/
theorem diagnostics_parseBare_eq_nil_iff (s : Text) :
    (parseBare s).diagnostics = [] ↔ WellNested s := by
  induction s using reading_induction with
  | nil =>
    rw [parseBare_nil]
    exact ⟨fun _ => wellNested_nil, fun _ => rfl⟩
  | plain c r hread ih =>
    simp [parseBare_plain hread, ih, wellNested_cons_of_noOpener (readOpener?_of_read_plain hread)]
  | inline s node rest hread ih =>
    obtain ⟨tag, htag, rfl⟩ := spellsInline_of_read hread
    have havoids : Text.Avoids blockMark tag := htag.avoids (by decide)
    rw [parseBare_inline hread, wellNested_append_of_avoids havoids, ← ih]
    rfl
  | unmatched s kind opener rest hread ih =>
    obtain ⟨path, hpath, hopener, rfl⟩ := spellsOpener_of_read_unmatched hread
    have hnested := not_wellNested (not_noOpener_append hpath hopener rest)
      (readAnyBlock?_of_read_unmatched hread)
    rw [parseBare_unmatched hread]
    exact ⟨fun h => absurd h (List.cons_ne_nil _ _), fun h => absurd h hnested⟩
  | block s b hread hfirst hsecond hrest =>
    have hcomplete := Block.complete_of_read hread
    rw [parseBare_block hread, Directive.eq_of_read_block hread, wellNested_block hcomplete,
      b.wellNested_parts, ← hfirst, ← hsecond, ← hrest]
    simp only [Parsed.report, Parsed.addNode, List.append_eq_nil_iff]

end Stencil.Template
