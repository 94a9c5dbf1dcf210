import Stencil.Proofs.Template.RoundTrip
import Stencil.Proofs.Template.Crossing

/-!
# Directives of no kind

A directive with a word that names no kind of block is text. In the body of a block it stays as it
is, but the scan for the closing tag looks at the beginnings of opening tags only: a word that
begins with the word of the kind counts as one more block of that kind. This file says what is read
from a block with such a body, in either case.
-/

namespace Stencil.Template

/-- A piece of a body that is text: one without opening braces, or a directive with a word that
names no kind of block. -/
inductive Literal
  | text (s : Text) (hs : '\x7b' ∉ s)
  | directive (word rest : Text) (hword : ∀ c ∈ word, ¬ Text.isBlank c) (hbrace : '\x7b' ∉ word)
    (hkind : ∀ kind : BlockKind, word ≠ kind.word) (hrest : '\x7b' ∉ rest)

namespace Literal

/-- How a piece is written. -/
def source : Literal → Text
  | text s _ => s
  | directive word rest .. => openBraces ++ '#' :: (word ++ ' ' :: (rest ++ closeBraces))

/-- Whether a piece is a directive with a word that begins with the word of a kind. -/
def mimics (kind : BlockKind) : Literal → Bool
  | text .. => false
  | directive word .. => kind.word.isPrefixOf word

end Literal

/-- How a body of such pieces is written. -/
def literalSource (body : List Literal) : Text := body.flatMap Literal.source

/-- The nodes of a text in which there is nothing to be read. -/
def textNodes : Text → List Node
  | [] => []
  | c :: r => [.text (c :: r)]

/-! ### Words -/

/-- No blank stands in the word of a kind. -/
theorem BlockKind.not_isBlank_of_mem_word {kind : BlockKind} {c : Char} (hc : c ∈ kind.word) :
    ¬ Text.isBlank c := by
  have hword : kind.word.all fun d => !Text.isBlank d := by cases kind <;> decide
  simpa using List.all_eq_true.mp hword c hc

/-- Two words with blanks behind them are the same if one text begins with both. -/
theorem eq_of_prefix_word {word other s : Text} {blank : Char} (hblank : Text.isBlank blank)
    (hword : ∀ c ∈ word, ¬ Text.isBlank c) (hother : ∀ c ∈ other, ¬ Text.isBlank c)
    (h : other ++ [blank] <+: word ++ ' ' :: s) : word = other := by
  have htake {w t : Text} {b : Char} (hw : ∀ c ∈ w, ¬ Text.isBlank c) (hb : Text.isBlank b) :
      (w ++ b :: t).takeWhile (fun c => !Text.isBlank c) = w := by
    rw [List.takeWhile_append_of_pos (by simpa using hw), List.takeWhile_cons_of_neg (by simp [hb]),
      List.append_nil]
  obtain ⟨t, ht⟩ := h
  rw [List.append_assoc, List.singleton_append] at ht
  have hspace : Text.isBlank ' ' := by decide
  rw [← htake hword hspace (t := s), ← ht, htake hother hblank]

/-- A word of a kind that a text with a blank behind a word begins with is the beginning of that
word. -/
theorem word_prefix_iff {kind : BlockKind} {word s : Text} :
    kind.word <+: word ++ ' ' :: s ↔ kind.word <+: word := by
  refine ⟨fun h => ?_, fun h => h.trans (List.prefix_append ..)⟩
  rcases List.prefix_or_prefix_of_prefix h (List.prefix_append word _) with hshort | ⟨t, ht⟩
  · exact hshort
  · rw [← ht, List.prefix_append_right_inj] at h
    cases t with
    | nil => rw [← ht, List.append_nil]
    | cons c t =>
      have hmem : c ∈ kind.word := by rw [← ht]; simp
      obtain rfl := (List.cons_prefix_cons.mp h).1
      exact absurd (by decide) (BlockKind.not_isBlank_of_mem_word hmem)

/-! ### What is passed over -/

/-- Where neither an opening tag nor a tag without a body can stand, text is read. -/
theorem read_plain_of_sign {sign : Char} {s : Text} (hsign : sign ∈ ['#', '/', '!'])
    (hs : openBraces ++ [sign] <+: s) (hopener : NoOpener s) : Directive.read s = .plain := by
  refine read_plain_iff.mpr ⟨?_, ?_⟩
  · rintro kind path opener hpath hspells ⟨rest, rfl⟩
    exact not_noOpener_append hpath hspells rest hopener
  · rintro node tag htag ⟨rest, rfl⟩
    have havoids : Text.Avoids (openBraces ++ [sign]) tag := htag.avoids hsign
    obtain ⟨c, t, rfl⟩ := List.exists_cons_of_ne_nil htag.ne_nil
    exact havoids.1 rest hs

/-- Two braces with a sign, at which text is read, are text up to the next opening brace. -/
theorem parseBare_append_sign {sign : Char} {inside : Text} (hbrace : '\x7b' ∉ sign :: inside)
    (r : Text) (hread : Directive.read (openBraces ++ sign :: inside ++ r) = .plain) :
    parseBare (openBraces ++ sign :: inside ++ r) =
      (parseBare r).addText (openBraces ++ sign :: inside) := by
  have hbehind := parseBare_append_of_avoids (avoids_openBraces_tail hbrace) r
  have hfirst : parseBare (openBraces ++ sign :: inside ++ r) = _ := parseBare_plain hread
  rw [hfirst]
  change (parseBare ('\x7b' :: sign :: inside ++ r)).addText ['\x7b'] = _
  rw [hbehind, addText_addText]
  rfl

/-- A closing tag at which no block is open is text. -/
theorem parseBare_append_closeTag (kind : BlockKind) (r : Text) :
    parseBare (kind.closeTag ++ r) = (parseBare r).addText kind.closeTag := by
  have hopener : NoOpener (kind.closeTag ++ r) :=
    noOpener_of_not_blockMark (by simp [closeTag_eq, openBraces, blockMark, List.cons_prefix_cons])
  have hsign : openBraces ++ ['/'] <+: kind.closeTag ++ r := by
    rw [closeTag_eq]
    exact ⟨kind.word ++ closeBraces ++ r, by simp⟩
  have hread := read_plain_of_sign (by decide) hsign hopener
  rw [closeTag_eq] at hread ⊢
  exact parseBare_append_sign (not_mem_closeTag kind) r hread

namespace Literal

/-- Behind the two braces of a directive stands no further opening brace. -/
theorem not_mem_inside {word rest : Text} (hbrace : '\x7b' ∉ word) (hrest : '\x7b' ∉ rest) :
    '\x7b' ∉ '#' :: (word ++ ' ' :: (rest ++ closeBraces)) := by
  simp [hbrace, hrest, closeBraces]

/-- A piece of text begins no mark but that of blocks. -/
theorem avoids {sign : Char} (mark : Text) (hsign : sign ≠ '#') (l : Literal) :
    Text.Avoids (openBraces ++ sign :: mark) l.source := by
  cases l with
  | text s hs => exact Text.avoids_of_not_mem hs
  | directive word rest hword hbrace hkind hrest =>
    exact avoids_sign mark hsign.symm (not_mem_inside hbrace hrest)

/-- A piece of text is read as it is written. -/
theorem parseBare_append (l : Literal) (r : Text) :
    parseBare (l.source ++ r) = (parseBare r).addText l.source := by
  cases l with
  | text s hs => exact parseBare_append_of_avoids (Text.avoids_of_not_mem hs) r
  | directive word rest hword hbrace hkind hrest =>
    rw [source]
    have hsign : openBraces ++ ['#'] <+:
        openBraces ++ '#' :: (word ++ ' ' :: (rest ++ closeBraces)) ++ r :=
      ⟨word ++ ' ' :: (rest ++ closeBraces) ++ r, by simp⟩
    refine parseBare_append_sign (not_mem_inside hbrace hrest) r
      (read_plain_of_sign (by decide) hsign fun kind => ?_)
    rw [Option.eq_none_iff_forall_ne_some]
    rintro ⟨path, behind⟩ hopener
    obtain ⟨-, opener, hspells, hfront⟩ := spellsOpener_of_readOpener? hopener
    obtain @⟨blank, tag, hblank, -⟩ := hspells
    have hword' : kind.word ++ [blank] <+: word ++ ' ' :: (rest ++ closeBraces ++ r) :=
      ⟨tag ++ behind, by simpa [BlockKind.openMark, blockMark, openBraces] using hfront.symm⟩
    exact hkind kind (eq_of_prefix_word hblank hword
      (fun c hc => BlockKind.not_isBlank_of_mem_word hc) hword')

/-- The scan for the closing tag of a kind passes over a piece of text. It goes one level down if
the piece is a directive with a word that begins with the word of the kind. -/
theorem splitClose?_append (l : Literal) (kind : BlockKind) (depth : Nat) (r : Text) :
    splitClose? kind.openMark kind.closeTag depth (l.source ++ r) =
      (splitClose? kind.openMark kind.closeTag (depth + (l.mimics kind).toNat) r).map
        (prepend l.source) := by
  have hclose : Text.Avoids kind.closeTag l.source := by
    rw [closeTag_eq]
    exact l.avoids _ (by decide)
  cases l with
  | text s hs => exact Template.splitClose?_append (Text.avoids_of_not_mem hs) hclose depth r
  | directive word rest hword hbrace hkind hrest =>
    rw [mimics]
    by_cases hmimics : kind.word <+: word
    · rw [List.isPrefixOf_iff_prefix.mpr hmimics]
      obtain ⟨more, rfl⟩ := hmimics
      have hmore : '\x7b' ∉ more := fun h => hbrace (List.mem_append_right _ h)
      have hinside : '\x7b' ∉ more ++ ' ' :: (rest ++ closeBraces) := by
        simp [hmore, hrest, closeBraces]
      have hpass : Balanced kind (more ++ ' ' :: (rest ++ closeBraces)) :=
        balanced_of_avoids (Text.avoids_of_not_mem hinside) (Text.avoids_of_not_mem hinside)
      have hdown := splitClose?_openMark kind depth (more ++ ' ' :: (rest ++ closeBraces) ++ r)
      rw [hpass, map_prepend_prepend, ← List.append_assoc] at hdown
      simpa [source, BlockKind.openMark, blockMark, openBraces] using hdown
    · rw [Bool.eq_false_iff.mpr fun h => hmimics (List.isPrefixOf_iff_prefix.mp h)]
      have hopen :
          Text.Avoids kind.openMark (source (directive word rest hword hbrace hkind hrest)) :=
        avoids_braces ('#' :: kind.word) (by simp) (not_mem_inside hbrace hrest) fun after h => by
          rw [List.cons_append, List.append_assoc] at h
          exact hmimics (word_prefix_iff.mp (List.cons_prefix_cons.mp h).2)
      exact Template.splitClose?_append hopen hclose depth r

end Literal

/-! ### Bodies of such pieces -/

variable (body : List Literal)

/-- A body begins no mark but that of blocks. -/
theorem avoids_literalSource {sign : Char} (mark : Text) (hsign : sign ≠ '#') :
    Text.Avoids (openBraces ++ sign :: mark) (literalSource body) := by
  induction body with
  | nil => trivial
  | cons l body ih => exact (l.avoids mark hsign).append ih

/-- A body is read as it is written. -/
theorem parseBare_append_literalSource (r : Text) :
    parseBare (literalSource body ++ r) = (parseBare r).addText (literalSource body) := by
  induction body with
  | nil => exact (addText_nil _).symm
  | cons l body ih =>
    have hcons : literalSource (l :: body) = l.source ++ literalSource body := rfl
    simp [hcons, l.parseBare_append, ih]

/-- The scan for the closing tag of a kind comes out of a body as many levels down as directives in
it have words that begin with the word of the kind. -/
theorem splitClose?_literalSource (kind : BlockKind) (depth : Nat) (r : Text) :
    splitClose? kind.openMark kind.closeTag depth (literalSource body ++ r) =
      (splitClose? kind.openMark kind.closeTag (depth + body.countP (·.mimics kind)) r).map
        (prepend (literalSource body)) := by
  induction body generalizing depth with
  | nil =>
    rw [literalSource, List.flatMap_nil, map_prepend_nil]
    rfl
  | cons l body ih =>
    have hcons : literalSource (l :: body) = l.source ++ literalSource body := rfl
    have hcount : depth + (l.mimics kind).toNat + body.countP (·.mimics kind) =
        depth + (l :: body).countP (·.mimics kind) := by
      cases h : l.mimics kind <;> simp [h, Nat.add_assoc, Nat.add_comm 1]
    rw [hcons, List.append_assoc, l.splitClose?_append, ih, map_prepend_prepend, hcount]

/-- A text in which the tag between two bodies does not stand is not split at it. -/
theorem splitElse?_eq_none_of_not_infix {tag s : Text} (h : ¬ tag <:+: s) :
    splitElse? tag s = none := by
  rw [Option.eq_none_iff_forall_ne_some]
  rintro ⟨before, after⟩ hsplit
  exact h ⟨before, after, (eq_of_splitElse? hsplit).symm⟩

/-- A body is read as a single text, or as nothing if it is empty. -/
theorem parseBare_literalSource :
    parseBare (literalSource body) = ⟨textNodes (literalSource body), []⟩ := by
  have hread := parseBare_append_literalSource body []
  rw [List.append_nil, parseBare_nil] at hread
  rw [hread]
  cases literalSource body <;> rfl

variable {body} {kind : BlockKind} {path opener : Text}

/-- A block with a body in which no word begins with the word of its kind is read as a block. -/
theorem parseBare_literal_block (hpath : IsPath path) (hopener : SpellsOpener kind path opener)
    (hwords : ∀ l ∈ body, l.mimics kind = false) :
    parseBare (opener ++ literalSource body ++ kind.closeTag) =
      ⟨[kind.node path (textNodes (literalSource body)) []], []⟩ := by
  have hcount : body.countP (·.mimics kind) = 0 := by simpa [List.countP_eq_zero] using hwords
  have hbalanced : Balanced kind (literalSource body) := by
    intro depth r
    rw [splitClose?_literalSource, hcount, Nat.add_zero]
  have helse : splitElse? elseTag (literalSource body) = none := by
    have havoids : Text.Avoids elseTag (literalSource body) :=
      avoids_literalSource body ['l', 's', 'e', '\x7d', '\x7d'] (by decide)
    exact splitElse?_eq_none_of_not_infix (Text.not_infix_of_avoids (by decide) havoids)
  have hparts : Block.parts ⟨kind, path, opener, literalSource body, []⟩ =
      (literalSource body, []) := by
    cases kind with
    | conditional => rw [Block.parts_conditional, helse, Option.getD_none]
    | _ => rfl
  have hread := parseBare_append_block hopener hpath hbalanced [] hparts
    (parseBare_literalSource body) parseBare_nil
  rw [List.append_nil, parseBare_nil] at hread
  exact hread

/-- A block with a body in which a word begins with the word of its kind is text, and its opening
tag is reported. -/
theorem parseBare_literal_unmatched (hpath : IsPath path)
    (hopener : SpellsOpener kind path opener) (hword : ∃ l ∈ body, l.mimics kind) :
    parseBare (opener ++ literalSource body ++ kind.closeTag) =
      ⟨[.text (opener ++ literalSource body ++ kind.closeTag)],
        [.unmatchedBlock kind opener]⟩ := by
  obtain ⟨outer, hcount⟩ := Nat.exists_eq_succ_of_ne_zero
    (List.countP_pos_iff.mpr hword).ne'
  have hscan : splitClose? kind.openMark kind.closeTag 0
      (literalSource body ++ kind.closeTag) = none := by
    have hclose := splitClose?_closeTag_succ kind outer []
    rw [List.append_nil, splitClose?] at hclose
    rw [splitClose?_literalSource, hcount, Nat.zero_add, hclose]
    rfl
  have hopen := readOpener?_append hopener hpath (literalSource body ++ kind.closeTag)
  have hblock : readAnyBlock? (opener ++ (literalSource body ++ kind.closeTag)) = none := by
    rw [Option.eq_none_iff_forall_ne_some]
    intro b hb
    have hnone : readOpener? kind (opener ++ (literalSource body ++ kind.closeTag)) ≠ none := by
      simp [hopen]
    have hread := readBlock?_of_readAnyBlock? hnone hb
    simp [readBlock?, hopen, hscan] at hread
  have hrest : parseBare (literalSource body ++ kind.closeTag) =
      Parsed.empty.addText (literalSource body ++ kind.closeTag) := by
    have hclose := parseBare_append_closeTag kind []
    rw [List.append_nil, parseBare_nil] at hclose
    simp [parseBare_append_literalSource, hclose]
  have hne : opener ++ (literalSource body ++ kind.closeTag) ≠ [] := by
    simp
  rw [List.append_assoc, parseBare_unmatched (read_append_opener hpath hopener hblock), hrest,
    addText_addText, Parsed.empty, addText_of_not_beginsWithText hne (by decide)]
  rfl

/-- **Directives of no kind.** A block whose body consists of text and of directives with words that
name no kind is read as one block with the body as its text, and nothing is reported. But where the
word of a directive begins with the word of the kind of the block, the block is text and its opening
tag is reported. -/
theorem parse_literal_body (hpath : IsPath path) (hopener : SpellsOpener kind path opener)
    (body : List Literal) :
    let inside := literalSource body
    let source := opener ++ inside ++ kind.closeTag
    ((∀ l ∈ body, l.mimics kind = false) →
        parse source = ⟨[kind.node path (textNodes inside) []], []⟩) ∧
      ((∃ l ∈ body, l.mimics kind) →
        parse source = ⟨[.text source], [.unmatchedBlock kind opener]⟩) := by
  intro inside source
  have hcomment : ¬ commentOpen <:+: source := by
    have hopening : Text.Avoids commentOpen opener :=
      avoids_opener ['-', '-'] hopener hpath (by decide)
    have hinside : Text.Avoids commentOpen inside :=
      avoids_literalSource body ['-', '-'] (by decide)
    have hclosing : Text.Avoids commentOpen kind.closeTag :=
      avoids_closeTag ['-', '-'] kind (by decide)
    exact Text.not_infix_of_avoids (by decide) ((hopening.append hinside).append hclosing)
  rw [parse, stripComments_of_not_infix hcomment]
  exact ⟨parseBare_literal_block hpath hopener, parseBare_literal_unmatched hpath hopener⟩

/-- A directive with a word that is longer than that of conditionals and begins with it. -/
def longerDirective : Literal :=
  .directive ['i', 'f', 's'] ['b']
    (by simp only [List.forall_mem_cons, List.not_mem_nil, false_implies, implies_true]; decide)
    (by decide) (by intro kind; cases kind <;> decide) (by decide)

/-- Such a directive is the text of a loop, while a conditional with it as body is not read. -/
theorem parse_literal_body_of_longer_word :
    let loop := BlockKind.each.plainOpener ['a'] ++ longerDirective.source ++
      BlockKind.each.closeTag
    let condition := BlockKind.conditional.plainOpener ['a'] ++ longerDirective.source ++
      BlockKind.conditional.closeTag
    parse loop = ⟨[.each ['a'] [.text longerDirective.source]], []⟩ ∧
      parse condition = ⟨[.text condition],
        [.unmatchedBlock .conditional (BlockKind.conditional.plainOpener ['a'])]⟩ := by
  intro loop condition
  have hpath : IsPath ['a'] := .plain (.word (.of_all (by decide) (by decide)))
  have hbody : literalSource [longerDirective] = longerDirective.source := List.append_nil _
  have hloop := (parse_literal_body hpath (spellsOpener_plainOpener .each ['a'])
    [longerDirective]).1 (by decide)
  have hcondition := (parse_literal_body hpath (spellsOpener_plainOpener .conditional ['a'])
    [longerDirective]).2 (by decide)
  rw [hbody] at hloop hcondition
  exact ⟨hloop, hcondition⟩

/-- The body of this conditional is no text of its own, and the opening tag is reported. -/
theorem condition_ne_text_of_longer_word :
    let opener := BlockKind.conditional.openMark ++ [' ', 'a'] ++ closeBraces
    let source := opener ++ longerDirective.source ++ BlockKind.conditional.closeTag
    (parse source).diagnostics = [.unmatchedBlock .conditional opener] ∧
      parse source ≠ ⟨[.conditional ['a'] [.text longerDirective.source] []], []⟩ := by
  intro opener source
  have hreport : (parse source).diagnostics = [.unmatchedBlock .conditional opener] := by
    decide +kernel
  refine ⟨hreport, fun heq => ?_⟩
  rw [heq] at hreport
  contradiction

end Stencil.Template
