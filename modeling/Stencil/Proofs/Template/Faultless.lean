import Stencil.Proofs.Template.Linting
import Stencil.Proofs.Template.Cut
import Stencil.Proofs.Template.Rendering
import Stencil.Proofs.Text.Search

/-!
# Templates without mistakes

The check of templates looks at lines, at counts, and at tags of one kind at a time, so it could
take something for a mistake that is none. In a spelling of a well-formed tree it finds nothing: no
piece of such a spelling lets a misspelt keyword or a closing tag with a brace too many begin in it,
not even together with the pieces around it, and every opening tag comes with its closing tag.
-/

namespace Stencil.Template

/-- The characters that the check looks for behind the opening braces of a branch. -/
def elseifWord : Text := ['e', 'l', 's', 'e', 'i', 'f']

/-- A text with some characters, none of which is a brace. -/
def IsBraceless (s : Text) : Prop := s ≠ [] ∧ '\x7b' ∉ s ∧ '\x7d' ∉ s

/-- The path of a value that a node writes. -/
def Node.valuePath? : Node → Option Text
  | .escaped path => some path
  | .raw path => some path
  | _ => none

/-! ### Misspelt keywords -/

/-- What the misspelt keywords of blocks go on with behind the mark of blocks. -/
def misspeltWords : List Text := ["fi ".toList, elseifWord, " if".toList]

/-- The misspelt keywords stand behind two braces. -/
theorem typo_cases {typo : Text × Text} (h : typo ∈ typos) :
    (∃ word ∈ misspeltWords, typo.1 = openBraces ++ '#' :: word) ∨
      typo.1 = openBraces ++ elseifWord ∨ typo.1 = openBraces ++ ' ' :: "#if".toList := by
  simp only [typos, List.mem_cons, List.not_mem_nil, or_false] at h
  rcases h with rfl | rfl | rfl | rfl | rfl
  · exact Or.inl ⟨"fi ".toList, by decide, rfl⟩
  · exact Or.inl ⟨elseifWord, by decide, rfl⟩
  · exact Or.inr (Or.inl rfl)
  · exact Or.inr (Or.inr rfl)
  · exact Or.inl ⟨" if".toList, by decide, rfl⟩

/-- Behind the two braces of a misspelt keyword stands no further one. -/
theorem exists_sign_of_typo {typo : Text × Text} (h : typo ∈ typos) :
    ∃ sign mark, typo.1 = openBraces ++ sign :: mark ∧ sign ≠ '\x7b' := by
  rcases typo_cases h with ⟨word, -, h⟩ | h | h
  · exact ⟨'#', word, h, by decide⟩
  · exact ⟨'e', _, h, by decide⟩
  · exact ⟨' ', _, h, by decide⟩

/-- No misspelt keyword begins in a text, whatever follows. -/
def AvoidsTypos (s : Text) : Prop := ∀ typo ∈ typos, Text.Avoids typo.1 s

/-- No misspelt keyword begins in a text in which none does behind the mark of blocks, behind two
braces or behind a blank. -/
theorem avoidsTypos_of_words {s : Text}
    (hblock : ∀ word ∈ misspeltWords, Text.Avoids (openBraces ++ '#' :: word) s)
    (helse : Text.Avoids (openBraces ++ elseifWord) s)
    (hblank : Text.Avoids (openBraces ++ ' ' :: "#if".toList) s) : AvoidsTypos s := by
  intro typo htypo
  rcases typo_cases htypo with ⟨word, hword, h⟩ | h | h
  · exact h ▸ hblock word hword
  · exact h ▸ helse
  · exact h ▸ hblank

/-! ### Closing tags with a brace too many -/

/-- A closing tag with a brace too many. -/
def IsCollision (tag : Text) : Prop :=
  ∃ word, word ≠ [] ∧ '\x7d' ∉ word ∧ tag = openBraces ++ '/' :: (word ++ '\x7d' :: closeBraces)

/-- What is read as a closing tag with a brace too many is one, and it stands there. -/
theorem isCollision_of_readCollision? {s tag : Text} (h : readCollision? s = some tag) :
    IsCollision tag ∧ tag <+: s := by
  simp only [readCollision?, Option.bind_eq_bind, Option.bind_eq_some_iff,
    Option.ite_none_right_eq_some, Bool.and_eq_true, Option.some.injEq] at h
  obtain ⟨inside, hopen, ⟨hword, hclose⟩, rfl⟩ := h
  refine ⟨⟨inside.takeWhile (· != '\x7d'), ?_, ?_, by simp⟩, ?_⟩
  · rintro hempty
    simp [hempty] at hword
  · exact fun hmem => by simpa using List.mem_takeWhile_imp hmem
  · obtain ⟨rest, hrest⟩ := List.isPrefixOf_iff_prefix.mp hclose
    have hinside : inside.takeWhile (· != '\x7d') ++ ('\x7d' :: closeBraces ++ rest) = inside := by
      rw [hrest]
      exact List.takeWhile_append_dropWhile
    refine ⟨rest, Eq.trans ?_ (List.append_eq_of_isPrefixOf?_eq_some hopen)⟩
    simpa only [List.append_assoc] using congrArg (openBraces ++ ['/'] ++ ·) hinside

/-- What is found in a line is a closing tag with a brace too many that stands in it. -/
theorem isCollision_of_collision? {s tag : Text} (h : collision? s = some tag) :
    IsCollision tag ∧ tag <:+: s := by
  induction s with
  | nil => contradiction
  | cons c r ih =>
    rw [collision?, Option.orElse_eq_or, Option.or_eq_some_iff] at h
    rcases h with hfront | ⟨-, hlater⟩
    · obtain ⟨htag, hprefix⟩ := isCollision_of_readCollision? hfront
      exact ⟨htag, hprefix.isInfix⟩
    · obtain ⟨htag, hwithin⟩ := ih hlater
      exact ⟨htag, hwithin.trans (List.suffix_cons c r).isInfix⟩

/-- A closing tag with a brace too many is a text in braces. -/
theorem IsCollision.isBraced {tag : Text} (h : IsCollision tag) : IsBraced tag := by
  obtain ⟨word, -, hword, rfl⟩ := h
  exact ⟨'\x7b' :: '/' :: word, 3, rfl, by simpa using hword⟩

/-! ### Pieces of templates -/

/-- A piece in which the check of lines finds nothing. No tag can reach over its ends: a closing
brace does not stand at its front, and the last brace of it is no opening one. -/
structure Clean (s : Text) : Prop where
  typos : AvoidsTypos s
  collisions : ∀ tag, IsCollision tag → ¬ tag <:+: s
  front : s.head? ≠ some '\x7d'
  back : (s.filter isBrace).getLast? ≠ some '\x7b'

/-- Clean pieces one after the other are clean. -/
theorem Clean.append {s t : Text} (hs : Clean s) (ht : Clean t) : Clean (s ++ t) where
  typos typo htypo := (hs.typos typo htypo).append (ht.typos typo htypo)
  collisions tag htag hwithin :=
    (htag.isBraced.infix_of_safeCut ⟨hs.back, ht.front⟩ hwithin).elim (hs.collisions tag htag)
      (ht.collisions tag htag)
  front := by
    cases s with
    | nil => exact ht.front
    | cons c s => exact hs.front
  back := by
    rw [List.filter_append, List.getLast?_append, Ne, Option.or_eq_some_iff]
    rintro (hlast | ⟨-, hlast⟩)
    · exact ht.back hlast
    · exact hs.back hlast

/-- Text without braces is clean. -/
theorem clean_of_braceless {s : Text} (hopen : '\x7b' ∉ s) (hclose : '\x7d' ∉ s) : Clean s where
  typos := avoidsTypos_of_words (fun _ _ => Text.avoids_of_not_mem hopen)
    (Text.avoids_of_not_mem hopen) (Text.avoids_of_not_mem hopen)
  collisions := by
    rintro tag ⟨word, -, -, rfl⟩ hwithin
    exact hopen (hwithin.subset List.mem_cons_self)
  front hfront := hclose (List.mem_of_mem_head? hfront)
  back hback := hopen (List.mem_of_mem_filter (List.mem_of_mem_getLast? hback))

/-- A tag in which nothing is found is clean. -/
theorem clean_of_braces {s : Text} (htypos : AvoidsTypos s)
    (hcollisions : ∀ tag, IsCollision tag → ¬ tag <:+: s) (hfront : openBraces <+: s)
    (hback : ['\x7d'] <:+ s) : Clean s where
  typos := htypos
  collisions := hcollisions
  front := by
    obtain ⟨r, rfl⟩ := hfront
    exact nofun
  back := by
    obtain ⟨r, rfl⟩ := hback
    simp [List.filter_append, isBrace]

/-- No closing tag with a brace too many stands in a tag in which no closing tag begins. -/
theorem not_collision_of_avoids {s : Text}
    (h : ∀ mark, Text.Avoids (openBraces ++ '/' :: mark) s) (tag : Text) (htag : IsCollision tag) :
    ¬ tag <:+: s := by
  obtain ⟨word, -, -, rfl⟩ := htag
  exact Text.not_infix_of_avoids nofun (h _)

/-- A tag begins with its opening and ends with its closing. -/
theorem SpellsTag.ends {opening argument closing tag : Text}
    (h : SpellsTag opening argument closing tag) : opening <+: tag ∧ closing <:+ tag := by
  obtain @⟨before, after, -, -⟩ := h
  refine ⟨?_, List.suffix_append ..⟩
  simp only [List.append_assoc]
  exact List.prefix_append ..

/-- A closing tag is clean. -/
theorem clean_closeTag (kind : BlockKind) : Clean kind.closeTag := by
  have havoids {sign : Char} (mark : Text) (hsign : sign ≠ '/') :
      Text.Avoids (openBraces ++ sign :: mark) kind.closeTag := avoids_closeTag mark kind hsign
  refine clean_of_braces (avoidsTypos_of_words (fun word _ => havoids word (by decide))
    (havoids _ (by decide)) (havoids _ (by decide))) ?_ ?_ ?_
  · rintro tag ⟨word, hword, -, rfl⟩ hwithin
    -- a closing tag has two closing braces only
    have hcount := hwithin.sublist.count_le '\x7d'
    have htwo : kind.closeTag.count '\x7d' = 2 := by cases kind <;> decide
    simp [openBraces, closeBraces, List.count_append, htwo] at hcount
  · rw [closeTag_eq]
    exact List.prefix_append ..
  · exact ⟨openBraces ++ ['/'] ++ kind.word ++ ['\x7d'], by simp [BlockKind.closeTag, closeBraces]⟩

/-- An opening tag is clean. -/
theorem clean_opener {kind : BlockKind} {path opener : Text}
    (hopener : SpellsOpener kind path opener) (hpath : IsPath path) : Clean opener := by
  have havoids {sign : Char} (mark : Text) (hsign : sign ≠ '#') :
      Text.Avoids (openBraces ++ sign :: mark) opener := avoids_opener mark hopener hpath hsign
  obtain ⟨inside, hinside, hbrace⟩ := hopener.exists_inside hpath
  refine clean_of_braces (avoidsTypos_of_words (fun word hword => ?_) (havoids _ (by decide))
    (havoids _ (by decide))) (not_collision_of_avoids fun mark => havoids mark (by decide)) ?_ ?_
  · have hwhole : opener = openBraces ++ '#' :: (kind.word ++ inside) := hinside
    rw [hwhole]
    refine avoids_braces ('#' :: word) nofun hbrace fun after hbegin => ?_
    -- the word of the kind is spelt right
    simp only [misspeltWords, List.mem_cons, List.not_mem_nil, or_false] at hword
    rcases hword with rfl | rfl | rfl <;>
      cases kind <;> simp [elseifWord, BlockKind.word, List.cons_prefix_cons] at hbegin
  · rw [hinside]
    exact ⟨_, rfl⟩
  · obtain @⟨blank, tag, -, htag⟩ := hopener
    have hlast : ['\x7d'] <:+ closeBraces := ⟨['\x7d'], rfl⟩
    exact ((hlast.trans htag.ends.2).trans (List.suffix_cons blank tag)).trans
      (List.suffix_append ..)

/-- The tag between two bodies is clean. -/
theorem clean_elseTag : Clean elseTag := by
  have havoids {sign : Char} (mark : Text) (hsign : sign ∈ signs) :
      Text.Avoids (openBraces ++ sign :: mark) elseTag := avoids_elseTag mark hsign
  refine clean_of_braces (avoidsTypos_of_words (fun word _ => havoids word (by decide)) ?_ ?_)
    (not_collision_of_avoids fun mark => havoids mark (by decide)) ⟨_, rfl⟩
    ⟨openBraces ++ elseWord ++ ['\x7d'], rfl⟩
  · refine avoids_braces (r := elseWord ++ closeBraces) _ nofun (by decide) fun after hbegin => ?_
    simp [elseifWord, elseWord, closeBraces, List.cons_prefix_cons] at hbegin
  · exact avoids_sign _ (by decide) (by decide)

/-- A word that stands at the front of blanks, a path and what may follow it stands at the front of
the path. -/
theorem prefix_of_prefix_path {word path r : Text} (hword : ∀ c ∈ word, isNameChar c)
    (hr : EndsArgument r) (h : word <+: path ++ r) : word <+: path := by
  obtain ⟨rest, hrest⟩ := h
  rcases List.append_eq_append_iff.mp hrest with ⟨u, rfl, -⟩ | ⟨u, rfl, hbehind⟩
  · exact List.prefix_append ..
  · cases u with
    | nil => rw [List.append_nil]
    | cons c u =>
      have hend : isNameChar c = false := hr c (by simp [hbehind])
      rw [hword c (by simp)] at hend
      contradiction

/-- A path that does not begin with the characters of a branch does not begin with them in its tag
either. -/
theorem not_elseifWord_prefix {before path after : Text} (hbefore : Blanks before)
    (hafter : Blanks after) (hpath : ¬ elseifWord <+: path) (r : Text) :
    ¬ elseifWord <+: before ++ (path ++ (after ++ closeBraces)) ++ r := by
  intro h
  cases before with
  | nil =>
    have hend : EndsArgument (after ++ closeBraces ++ r) := by
      rw [List.append_assoc]
      exact endsArgument_blanks hafter _
    have hword : ∀ c ∈ elseifWord, isNameChar c := List.all_eq_true.mp (by decide)
    rw [List.nil_append, List.append_assoc] at h
    exact hpath (prefix_of_prefix_path hword hend h)
  | cons b before =>
    have hfirst := (List.cons_prefix_cons.mp h).1
    have hblank := hbefore b List.mem_cons_self
    rw [← hfirst] at hblank
    exact absurd hblank (by decide)

/-- No misspelt keyword begins in the tag of a value whose path does not begin with the characters
of a branch. -/
theorem avoidsTypos_value {path tag : Text} (h : SpellsTag openBraces path closeBraces tag)
    (hpath : IsPath path) (helseif : ¬ elseifWord <+: path) : AvoidsTypos tag := by
  obtain @⟨before, after, hbefore, hafter⟩ := h
  have hsigns : ∀ c ∈ before ++ (path ++ (after ++ closeBraces)), c ∉ signs := by
    intro c hc
    simp only [List.mem_append] at hc
    rcases hc with hc | hc | hc | hc
    · exact not_mem_signs_of_isBlank (hbefore c hc)
    · exact hpath.not_mem_signs hc
    · exact not_mem_signs_of_isBlank (hafter c hc)
    · simp only [closeBraces, List.mem_cons, List.not_mem_nil, or_false, or_self] at hc
      rw [hc]
      decide
  have hnot := not_elseifWord_prefix hbefore hafter helseif
  have htag : openBraces ++ before ++ path ++ after ++ closeBraces =
      openBraces ++ (before ++ (path ++ (after ++ closeBraces))) := by simp only [List.append_assoc]
  obtain ⟨c, d, r, hinside⟩ :
      ∃ c d r, before ++ (path ++ (after ++ closeBraces)) = c :: d :: r := by
    rw [← List.append_assoc, ← List.append_assoc]
    rcases before ++ path ++ after with _ | ⟨c, _ | ⟨d, r⟩⟩ <;> exact ⟨_, _, _, rfl⟩
  rw [htag]
  rw [hinside] at hsigns hnot ⊢
  have hbrace : '\x7b' ∉ c :: d :: r := fun hmem => hsigns _ hmem (by decide)
  refine avoidsTypos_of_words (fun word _ => avoids_sign word ?_ hbrace)
    (avoids_braces _ nofun hbrace hnot) (avoids_braces _ nofun hbrace fun after hbegin => ?_)
  · rintro rfl
    exact hsigns _ List.mem_cons_self (by decide)
  · have hsecond := (List.cons_prefix_cons.mp (List.cons_prefix_cons.mp hbegin).2).1
    exact hsigns d (by simp) (hsecond ▸ by decide)

/-- A tag without a body is clean, if the path of a value does not begin with the characters of a
branch. -/
theorem clean_inline {node : Node} {tag : Text} (h : SpellsInline node tag)
    (hvalue : ∀ path ∈ node.valuePath?, ¬ elseifWord <+: path) : Clean tag := by
  have hcollisions : ∀ closing, IsCollision closing → ¬ closing <:+: tag :=
    not_collision_of_avoids fun mark => h.avoids (by decide)
  cases h with
  | escaped hpath h =>
    exact clean_of_braces (avoidsTypos_value h hpath (hvalue _ rfl)) hcollisions h.ends.1
      (List.IsSuffix.trans ⟨['\x7d'], rfl⟩ h.ends.2)
  | raw hpath h =>
    refine clean_of_braces ?_ hcollisions (List.IsPrefix.trans ⟨['\x7b'], rfl⟩ h.ends.1)
      (List.IsSuffix.trans ⟨closeBraces, rfl⟩ h.ends.2)
    obtain ⟨inner, hinner, rfl⟩ := h.exists_inner
    intro typo htypo
    have hinside := avoidsTypos_value hinner hpath (hvalue _ rfl) typo htypo
    obtain ⟨r, rfl⟩ := hinner.ends.1
    obtain ⟨sign, mark, hmark, hsign⟩ := exists_sign_of_typo htypo
    rw [hmark] at hinside ⊢
    refine ⟨fun after hbegin => hsign ?_, hinside.append (Text.avoids_of_not_mem (by decide))⟩
    exact (List.cons_prefix_cons.mp ((List.prefix_append_right_inj openBraces).mp hbegin)).1
  | partialRef hname h =>
    obtain ⟨r, rfl, hbrace⟩ := h.not_mem_name hname
    refine clean_of_braces (avoidsTypos_of_words (fun word _ => avoids_sign word (by decide) hbrace)
      (avoids_sign _ (by decide) hbrace) (avoids_sign _ (by decide) hbrace)) hcollisions ⟨_, rfl⟩
      (List.IsSuffix.trans ⟨['\x7d'], rfl⟩ h.ends.2)

/-! ### Counting tags -/

/-- A text has as many opening tags of a kind as closing ones, whatever follows. -/
def EvenTags (kind : BlockKind) (s : Text) : Prop :=
  ∃ n, ∀ r, countPlaces (beginsBlock kind) (s ++ r) = n + countPlaces (beginsBlock kind) r ∧
    countPlaces kind.closeTag.isPrefixOf (s ++ r) = n + countPlaces kind.closeTag.isPrefixOf r

section Counts

variable {kind other : BlockKind} {s t : Text}

/-- Where an opening tag of a kind is counted, its mark stands. -/
theorem openMark_prefix_of_beginsBlock (h : beginsBlock kind s) : kind.openMark <+: s := by
  rw [beginsBlock] at h
  split at h
  · next rest hrest => exact ⟨rest, List.append_eq_of_isPrefixOf?_eq_some hrest⟩
  · contradiction

/-- Text in which no opening tag of a kind begins does not change how many are counted. -/
theorem countPlaces_beginsBlock_append (hs : Text.Avoids kind.openMark s) (r : Text) :
    countPlaces (beginsBlock kind) (s ++ r) = countPlaces (beginsBlock kind) r :=
  countPlaces_append_of_avoids (fun _ => openMark_prefix_of_beginsBlock) hs r

/-- Text in which no closing tag of a kind begins does not change how many are counted. -/
theorem countPlaces_closeTag_append (hs : Text.Avoids kind.closeTag s) (r : Text) :
    countPlaces kind.closeTag.isPrefixOf (s ++ r) = countPlaces kind.closeTag.isPrefixOf r :=
  countPlaces_append_of_avoids (fun _ => List.isPrefixOf_iff_prefix.mp) hs r

/-- Text in which no tag of a kind begins has as many opening tags as closing ones. -/
theorem evenTags_of_avoids (hopen : Text.Avoids kind.openMark s)
    (hclose : Text.Avoids kind.closeTag s) : EvenTags kind s :=
  ⟨0, fun r => by rw [countPlaces_beginsBlock_append hopen, countPlaces_closeTag_append hclose,
    Nat.zero_add, Nat.zero_add]; exact ⟨rfl, rfl⟩⟩

/-- Two texts with as many opening tags as closing ones have as many of them together. -/
theorem EvenTags.append (hs : EvenTags kind s) (ht : EvenTags kind t) : EvenTags kind (s ++ t) := by
  obtain ⟨n, hs⟩ := hs
  obtain ⟨m, ht⟩ := ht
  refine ⟨n + m, fun r => ?_⟩
  obtain ⟨hopens, hcloses⟩ := hs (t ++ r)
  obtain ⟨hopens', hcloses'⟩ := ht r
  rw [List.append_assoc, hopens, hcloses, hopens', hcloses', Nat.add_assoc, Nat.add_assoc]
  exact ⟨rfl, rfl⟩

/-- An opening tag of a kind is counted once. -/
theorem countPlaces_opener {path opener : Text} (hopener : SpellsOpener kind path opener)
    (hpath : IsPath path) (r : Text) :
    countPlaces (beginsBlock kind) (opener ++ r) = 1 + countPlaces (beginsBlock kind) r := by
  have hbegins : beginsBlock kind (opener ++ r) := by
    obtain @⟨blank, tag, hblank, -⟩ := hopener
    rw [List.append_assoc, beginsBlock, Text.isPrefixOf?_append]
    simpa using hblank
  obtain ⟨tail, rfl, htail⟩ := hopener.exists_tail hpath
  rw [List.cons_append] at hbegins ⊢
  rw [countPlaces, if_pos hbegins,
    countPlaces_beginsBlock_append (htail.of_prefix ⟨'#' :: kind.word, rfl⟩)]

/-- A closing tag of a kind is counted once. -/
theorem countPlaces_closeTag (kind : BlockKind) (r : Text) :
    countPlaces kind.closeTag.isPrefixOf (kind.closeTag ++ r) =
      1 + countPlaces kind.closeTag.isPrefixOf r := by
  have hbegins : kind.closeTag.isPrefixOf (kind.closeTag ++ r) :=
    List.isPrefixOf_iff_prefix.mpr (List.prefix_append ..)
  obtain ⟨tail, htag, htail⟩ := exists_tail_closeTag kind
  have havoids : Text.Avoids kind.closeTag tail :=
    htail.of_prefix (closeTag_eq kind ▸ List.prefix_append ..)
  have hrest := countPlaces_closeTag_append havoids r
  generalize hmark : kind.closeTag.isPrefixOf = begins at hbegins hrest ⊢
  rw [htag, List.cons_append] at hbegins ⊢
  rw [countPlaces, if_pos hbegins, hrest]

/-- A block has as many opening tags of each kind as closing ones, if its body has. -/
theorem evenTags_block {path opener body : Text} (hopener : SpellsOpener other path opener)
    (hpath : IsPath path) (hbody : EvenTags kind body) :
    EvenTags kind (opener ++ body ++ other.closeTag) := by
  have hclosing : Text.Avoids kind.closeTag opener := by
    rw [closeTag_eq]
    exact avoids_opener _ hopener hpath (by decide)
  have hopening : Text.Avoids kind.openMark other.closeTag :=
    avoids_closeTag kind.word other (by decide)
  by_cases hkind : kind = other
  · subst hkind
    obtain ⟨n, hbody⟩ := hbody
    refine ⟨n + 1, fun r => ?_⟩
    obtain ⟨hopens, hcloses⟩ := hbody (kind.closeTag ++ r)
    rw [List.append_assoc, List.append_assoc, countPlaces_opener hopener hpath, hopens,
      countPlaces_beginsBlock_append hopening, countPlaces_closeTag_append hclosing, hcloses,
      countPlaces_closeTag]
    omega
  · have houter := evenTags_of_avoids (avoids_openMark_opener hopener hpath hkind) hclosing
    exact (houter.append hbody).append
      (evenTags_of_avoids hopening (avoids_closeTag_closeTag hkind))

end Counts

/-! ### Spellings -/

/-- A piece of a template in which the check of lines finds nothing, with as many opening tags of
each kind as closing ones. -/
structure Faultless (s : Text) : Prop where
  clean : Clean s
  even : ∀ kind, EvenTags kind s

/-- Faultless pieces one after the other are faultless. -/
theorem Faultless.append {s t : Text} (hs : Faultless s) (ht : Faultless t) : Faultless (s ++ t) :=
  ⟨hs.clean.append ht.clean, fun kind => (hs.even kind).append (ht.even kind)⟩

/-- Text without braces is faultless. -/
theorem faultless_of_braceless {s : Text} (hopen : '\x7b' ∉ s) (hclose : '\x7d' ∉ s) :
    Faultless s :=
  ⟨clean_of_braceless hopen hclose, fun _ =>
    evenTags_of_avoids (Text.avoids_of_not_mem hopen) (Text.avoids_of_not_mem hopen)⟩

/-- A tag without a body is faultless, if the path of a value does not begin with the characters of
a branch. -/
theorem faultless_inline {node : Node} {tag : Text} (h : SpellsInline node tag)
    (hvalue : ∀ path ∈ node.valuePath?, ¬ elseifWord <+: path) : Faultless tag := by
  refine ⟨clean_inline h hvalue, fun kind => evenTags_of_avoids (h.avoids (by decide)) ?_⟩
  rw [closeTag_eq]
  exact h.avoids (by decide)

/-- The tag between two bodies is faultless. -/
theorem faultless_elseTag : Faultless elseTag := by
  refine ⟨clean_elseTag, fun kind => evenTags_of_avoids (avoids_elseTag kind.word (by decide)) ?_⟩
  rw [closeTag_eq]
  exact avoids_elseTag _ (by decide)

/-- A block is faultless, if its body is. -/
theorem faultless_block {kind : BlockKind} {path opener body : Text}
    (hopener : SpellsOpener kind path opener) (hpath : IsPath path) (hbody : Faultless body) :
    Faultless (opener ++ body ++ kind.closeTag) :=
  ⟨((clean_opener hopener hpath).append hbody.clean).append (clean_closeTag kind),
    fun other => evenTags_block hopener hpath (hbody.even other)⟩

mutual

/-- The spellings of a well-formed node are faultless. -/
theorem faultless_of_spells {node : Node} {s : Text} (h : Spells node s)
    (hwell : node.WellFormed IsBraceless IsOwnPath)
    (hvalues : ∀ value ∈ node.nodes, ∀ path ∈ value.valuePath?, ¬ elseifWord <+: path) :
    Faultless s := by
  have hinner {inner : List Node} (hmem : inner ⊆ node.nodes) :
      ∀ value ∈ inner, ∀ path ∈ value.valuePath?, ¬ elseifWord <+: path :=
    fun value hvalue => hvalues value (hmem hvalue)
  cases h with
  | text s => exact faultless_of_braceless hwell.2.1 hwell.2.2
  | escaped h => exact faultless_inline (.escaped hwell.1 h) (hvalues _ List.mem_cons_self)
  | raw h => exact faultless_inline (.raw hwell.1 h) (hvalues _ List.mem_cons_self)
  | partialRef h => exact faultless_inline (.partialRef hwell h) (hvalues _ List.mem_cons_self)
  | conditional hopener hthen helse =>
    have hthen := faultless_of_spellsAll hthen hwell.2.1 (hinner (by simp [Node.nodes]))
    have helse := faultless_of_spellsAll helse hwell.2.2 (hinner (by simp [Node.nodes]))
    have hblock := faultless_block hopener hwell.1.1 ((hthen.append faultless_elseTag).append helse)
    simpa only [List.append_assoc] using hblock
  | conditionalThen hopener hthen =>
    exact faultless_block hopener hwell.1.1
      (faultless_of_spellsAll hthen hwell.2.1 (hinner (by simp [Node.nodes])))
  | negated hopener hbody =>
    exact faultless_block hopener hwell.1.1
      (faultless_of_spellsAll hbody hwell.2 (hinner (List.subset_cons_self _ _)))
  | each hopener hbody =>
    exact faultless_block hopener hwell.1.1
      (faultless_of_spellsAll hbody hwell.2 (hinner (List.subset_cons_self _ _)))
  | within hopener hbody =>
    exact faultless_block hopener hwell.1.1
      (faultless_of_spellsAll hbody hwell.2 (hinner (List.subset_cons_self _ _)))

/-- The spellings of well-formed nodes are faultless. -/
theorem faultless_of_spellsAll {nodes : List Node} {s : Text} (h : SpellsAll nodes s)
    (hwell : WellFormedAll IsBraceless IsOwnPath nodes)
    (hvalues : ∀ value ∈ nodesAll nodes, ∀ path ∈ value.valuePath?, ¬ elseifWord <+: path) :
    Faultless s := by
  cases h with
  | nil => exact faultless_of_braceless List.not_mem_nil List.not_mem_nil
  | cons hnode hrest =>
    exact (faultless_of_spells hnode hwell.1 fun value hvalue =>
      hvalues value (List.mem_append_left _ hvalue)).append
        (faultless_of_spellsAll hrest hwell.2.2 fun value hvalue =>
          hvalues value (List.mem_append_right _ hvalue))

end

/-! ### The check -/

/-- A text without braces is seen as text wherever it stands. -/
theorem IsBraceless.isSafeText {s : Text} (h : IsBraceless s) : IsSafeText s := by
  obtain ⟨hne, hopen, -⟩ := h
  exact ⟨hne, fun hbraces => hopen (hbraces.subset List.mem_cons_self),
    fun hbrace => hopen (hbrace.subset List.mem_cons_self)⟩

/-- In a line of a clean text no mistake is found. -/
theorem lintLine_eq_nil {s line : Text} (hs : Clean s) (hline : line <:+: s) (template : Text)
    (number : Nat) : lintLine template number line = [] := by
  have hcollision : collision? line = none := by
    rw [Option.eq_none_iff_forall_ne_some]
    intro tag htag
    obtain ⟨hcollision, hwithin⟩ := isCollision_of_collision? htag
    exact hs.collisions tag hcollision (hwithin.trans hline)
  have hspelt : typos.filterMap (fun typo => if Text.includes typo.1 line then
      some (⟨template, number, .typo, typo.2⟩ : Mistake) else none) = [] := by
    rw [List.filterMap_eq_nil_iff]
    intro typo htypo
    obtain ⟨sign, mark, hmark, -⟩ := exists_sign_of_typo htypo
    have hne : typo.1 ≠ [] := by
      rw [hmark]
      exact nofun
    rw [if_neg]
    intro hincludes
    have hmarked : typo.1 <:+: line := Text.isSome_cut?_iff.mp hincludes
    exact Text.not_infix_of_avoids hne (hs.typos typo htypo) (hmarked.trans hline)
  rw [lintLine, hcollision]
  exact hspelt

/-- In a text with as many opening tags of a kind as closing ones, which all begin blocks, no
mistake about this kind is found. -/
theorem lintKind_eq_nil {kind : BlockKind} {s : Text} (heven : EvenTags kind s)
    (hmatched : AllMatched s) (template : Text) : lintKind template s kind = [] := by
  obtain ⟨n, hcounts⟩ := heven
  obtain ⟨hopens, hcloses⟩ := hcounts []
  rw [List.append_nil] at hopens hcloses
  have hsame : countPlaces (beginsBlock kind) s = countPlaces kind.closeTag.isPrefixOf s :=
    hopens.trans hcloses.symm
  have hunmatched : ∀ found ∈ findBlocks kind 0 s, ∃ span, found = .block span := by
    intro found hfound
    cases found with
    | block span => exact ⟨span, rfl⟩
    | unmatched offset => exact absurd hfound (hmatched kind offset)
  rw [lintKind, List.append_eq_nil_iff, List.filterMap_eq_nil_iff]
  refine ⟨if_pos (beq_iff_eq.mpr hsame), fun found hfound => ?_⟩
  obtain ⟨span, rfl⟩ := hunmatched found hfound
  rfl

/-- **The check reports no well-formed template.** If no brace stands in the texts of a well-formed
tree, and no path of a value begins with the characters of a branch, then no mistake is found in any
of its spellings. -/
theorem lint_spelling {nodes : List Node} {s : Text} (hspells : SpellsAll nodes s)
    (hwell : WellFormedAll IsBraceless IsOwnPath nodes)
    (hvalues : ∀ value ∈ nodesAll nodes, ∀ path ∈ value.valuePath?, ¬ elseifWord <+: path)
    (template : Text) : lint s template = [] := by
  have hsafe : WellFormedAll IsSafeText IsOwnPath nodes :=
    hwell.mono (fun _ => IsBraceless.isSafeText) fun _ => id
  have hfaultless := faultless_of_spellsAll hspells hwell hvalues
  have hcomment : ¬ commentOpen <:+: s :=
    Text.not_infix_of_avoids nofun (selfContained_of_spellsAll hspells hsafe).uncommented
  have hmatched : AllMatched s := by
    have hclean := parseBare_of_spellsAll hspells hsafe
    exact ((diagnostics_parseBare_eq_nil_iff_matched s).mp (by rw [hclean])).1
  have hlines : ((Text.lines s).zipIdx 1).flatMap
      (fun line => lintLine template line.2 line.1) = [] := by
    rw [List.flatMap_eq_nil_iff]
    intro line hline
    have hwithin := Text.infix_of_mem_lines (List.fst_mem_of_mem_zipIdx hline)
    exact lintLine_eq_nil hfaultless.clean hwithin template line.2
  have hkinds : BlockKind.all.flatMap (lintKind template s) = [] := by
    rw [List.flatMap_eq_nil_iff]
    exact fun kind _ => lintKind_eq_nil (hfaultless.even kind) hmatched template
  rw [lint, stripComments_of_not_infix hcomment]
  simp only [hlines, hkinds, List.append_nil, List.mergeSort_nil]

/-- Line breaks stand in the tags of a conditional, of a raw value and a partial in a loop, and of a
value whose path begins like the tag between two bodies. -/
theorem lint_spelling_of_broken_tags :
    let nodes : List Node := [.text ['a', '\n'], .conditional ['x']
      [.each ['@', 'y'] [.raw ['z'], .partialRef ['/', 'p']]] [.escaped (elseWord ++ ['s'])]]
    let s := ("a\n\x7b\x7b#if\n\nx\n\x7d\x7d\x7b\x7b#each\n\n@y\n\x7d\x7d" ++
      "\x7b\x7b\x7b\nz\n\x7d\x7d\x7d\x7b\x7b>\n/p\n\x7d\x7d\x7b\x7b/each\x7d\x7d" ++
      "\x7b\x7belse\x7d\x7d\x7b\x7b\nelses\n\x7d\x7d\x7b\x7b/if\x7d\x7d").toList
    SpellsAll nodes s ∧ WellFormedAll IsBraceless IsOwnPath nodes ∧
      (∀ value ∈ nodesAll nodes, ∀ path ∈ value.valuePath?, ¬ elseifWord <+: path) ∧
      lint s [] = [] := by
  intro nodes s
  have hblank : Text.isBlank '\n' := by decide
  have hblanks : Blanks ['\n'] := fun c hc => List.mem_singleton.mp hc ▸ hblank
  have hopener (kind : BlockKind) (path : Text) : SpellsOpener kind path _ :=
    .intro hblank (.intro hblanks hblanks)
  have hloop : SpellsAll [.raw ['z'], .partialRef ['/', 'p']] _ :=
    .cons (.raw (.intro hblanks hblanks)) (.cons (.partialRef (.intro hblanks hblanks)) .nil)
  have hspelled : SpellsAll nodes _ := .cons (.text _) (.cons (.conditional (hopener _ _)
    (.cons (.each (hopener _ _) hloop) .nil)
    (.cons (.escaped (.intro hblanks hblanks)) .nil)) .nil)
  have hspells : SpellsAll nodes s := by
    convert hspelled using 1
    decide +kernel
  have hword {s : Text} (hne : s ≠ []) (hs : s.all Text.isWord) : IsPlainPath s :=
    .word (.of_all hne hs)
  have hx : IsOwnPath ['x'] := ⟨.plain (hword (by decide) (by decide)), by decide⟩
  have hy : IsOwnPath ['@', 'y'] := ⟨.sign (hword (by decide) (by decide)), by decide⟩
  have hz : IsOwnPath ['z'] := ⟨.plain (hword (by decide) (by decide)), by decide⟩
  have helses : IsOwnPath (elseWord ++ ['s']) :=
    ⟨.plain (hword (by decide) (by decide)), by decide⟩
  have hname : IsPartialName ['/', 'p'] := ⟨by decide, List.all_eq_true.mp (by decide)⟩
  have htext : IsBraceless ['a', '\n'] := ⟨by decide, by decide, by decide⟩
  have hthen : WellFormedAll IsBraceless IsOwnPath
      [.each ['@', 'y'] [.raw ['z'], .partialRef ['/', 'p']]] :=
    ⟨⟨hy, hz, by decide, hname, by decide, trivial⟩, by decide, trivial⟩
  have hwell : WellFormedAll IsBraceless IsOwnPath nodes :=
    ⟨htext, by decide, ⟨hx, hthen, helses, by decide, trivial⟩, by decide, trivial⟩
  have hvalues : ∀ value ∈ nodesAll nodes, ∀ path ∈ value.valuePath?, ¬ elseifWord <+: path := by
    simp [nodes, nodesAll, Node.nodes, Node.valuePath?, elseifWord, elseWord]
  exact ⟨hspells, hwell, hvalues, lint_spelling hspells hwell hvalues []⟩

end Stencil.Template
