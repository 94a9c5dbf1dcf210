import Stencil.Template.Node
import Stencil.Text.Word

/-!
# Tags

The tags of the template language, read from the front of a text. Every reader returns what the tag
says and the text after it. Blanks are free after the opening braces and before the closing ones,
and at least one stands between the word of a block and its argument. A tag can be read in one way
only, since blanks, names and braces have no characters in common.
-/

namespace Stencil.Template

/-- Two opening braces. -/
def openBraces : Text := ['\x7b', '\x7b']

/-- Two closing braces. -/
def closeBraces : Text := ['\x7d', '\x7d']

/-- What every opening tag of a block begins with. -/
def blockMark : Text := ['\x7b', '\x7b', '#']

/-- The tag between the two bodies of a conditional. -/
def elseTag : Text := ['\x7b', '\x7b', 'e', 'l', 's', 'e', '\x7d', '\x7d']

/-- What the opening tags of a kind begin with. -/
def BlockKind.openMark (kind : BlockKind) : Text := blockMark ++ kind.word

/-- The closing tag of a kind. -/
def BlockKind.closeTag (kind : BlockKind) : Text :=
  openBraces ++ ['/'] ++ kind.word ++ closeBraces

/-- The longest continuation of a path whose last character so far is a word character: word
characters, and points with a word character behind them. -/
def continuePath : Text → Text × Text
  | [] => ([], [])
  | [c] => if Text.isWord c then ([c], []) else ([], [c])
  | c :: d :: r =>
    if Text.isWord c then
      let (path, rest) := continuePath (d :: r)
      (c :: path, rest)
    else if c == '.' && Text.isWord d then
      let (path, rest) := continuePath r
      (c :: d :: path, rest)
    else ([], c :: d :: r)

/-- A path without a sign before it: names of word characters with points between them. -/
def readPlainPath? : Text → Option (Text × Text)
  | [] => none
  | c :: r =>
    if Text.isWord c then
      let (path, rest) := continuePath r
      some (c :: path, rest)
    else none

/-- A path, which may have the sign `@` before it. -/
def readPath? : Text → Option (Text × Text)
  | '@' :: r => (readPlainPath? r).map fun (path, rest) => ('@' :: path, rest)
  | s => readPlainPath? s

/-- Characters in the name of a partial. -/
def isNameChar (c : Char) : Bool := Text.isWord c || c == '.' || c == '/' || c == '-'

/-- The name of a partial. -/
def readName? (s : Text) : Option (Text × Text) :=
  if (s.takeWhile isNameChar).isEmpty then none
  else some (s.takeWhile isNameChar, s.dropWhile isNameChar)

/-- What `read` reads between `opening` and `closing`, blanks around it. -/
def readBetween? (opening closing : Text) (read : Text → Option (Text × Text)) (s : Text) :
    Option (Text × Text) := do
  let inside ← opening.isPrefixOf? s
  let (argument, after) ← read (Text.skipBlanks inside)
  let rest ← closing.isPrefixOf? (Text.skipBlanks after)
  some (argument, rest)

/-- The argument of an opening tag of a kind, and the text after the tag. -/
def readOpener? (kind : BlockKind) (s : Text) : Option (Text × Text) := do
  let inside ← kind.openMark.isPrefixOf? s
  if inside.head?.any Text.isBlank then readBetween? [] closeBraces readPath? inside else none

/-- The name in a tag that includes a partial, and the text after the tag. -/
def readPartialTag? (s : Text) : Option (Text × Text) :=
  readBetween? (openBraces ++ ['>']) closeBraces readName? s

/-- The path in a tag of three braces, and the text after the tag. -/
def readRawTag? (s : Text) : Option (Text × Text) :=
  readBetween? ('\x7b' :: openBraces) ('\x7d' :: closeBraces) readPath? s

/-- The path in a tag of two braces, and the text after the tag. -/
def readEscapedTag? (s : Text) : Option (Text × Text) :=
  readBetween? openBraces closeBraces readPath? s

/-- The node of a tag without a body, and the text after the tag. -/
def readInline? (s : Text) : Option (Node × Text) :=
  match readPartialTag? s with
  | some (name, rest) => some (.partialRef name, rest)
  | none =>
    match readRawTag? s with
    | some (path, rest) => some (.raw path, rest)
    | none => (readEscapedTag? s).map fun (path, rest) => (.escaped path, rest)

/-! ### What was read and what follows -/

/-- A continuation of a path and what follows it are the whole text. -/
@[simp] theorem continuePath_append (s : Text) : (continuePath s).1 ++ (continuePath s).2 = s := by
  fun_induction continuePath s <;> simp_all

/-- A path and what follows it are the whole text. -/
theorem eq_of_readPath? {s path rest : Text} (h : readPath? s = some (path, rest)) :
    s = path ++ rest := by
  have plain {s path rest : Text} (h : readPlainPath? s = some (path, rest)) :
      s = path ++ rest := by
    unfold readPlainPath? at h
    split at h
    · simp at h
    · next c r =>
      split at h
      · simp only [Option.some.injEq, Prod.mk.injEq] at h
        simp [← h.1, ← h.2]
      · simp at h
  unfold readPath? at h
  split at h
  · next r =>
    simp only [Option.map_eq_some_iff, Prod.exists, Prod.mk.injEq] at h
    obtain ⟨path', rest', h, rfl, rfl⟩ := h
    simp [plain h]
  · exact plain h

/-- The name of a partial and what follows it are the whole text. -/
theorem eq_of_readName? {s name rest : Text} (h : readName? s = some (name, rest)) :
    s = name ++ rest := by
  unfold readName? at h
  split at h
  · simp at h
  · simp only [Option.some.injEq, Prod.mk.injEq] at h
    simp [← h.1, ← h.2]

/-- What follows a tag is shorter by at least the braces. -/
theorem length_readBetween? {opening closing : Text} {read : Text → Option (Text × Text)}
    {s argument rest : Text}
    (hread : ∀ {s argument rest}, read s = some (argument, rest) → s = argument ++ rest)
    (h : readBetween? opening closing read s = some (argument, rest)) :
    opening.length + closing.length + rest.length ≤ s.length := by
  simp only [readBetween?, Option.bind_eq_bind, Option.bind_eq_some_iff, Prod.exists,
    Option.some.injEq, Prod.mk.injEq] at h
  obtain ⟨inside, hopen, argument', after, harg, rest', hclose, -, rfl⟩ := h
  have := Text.length_of_isPrefixOf? hopen
  have := congrArg List.length (hread harg)
  have := Text.length_of_isPrefixOf? hclose
  have := Text.length_skipBlanks_le inside
  have := Text.length_skipBlanks_le after
  simp only [List.length_append] at *
  omega

/-- What follows an opening tag is shorter. -/
theorem length_readOpener? {kind : BlockKind} {s path rest : Text}
    (h : readOpener? kind s = some (path, rest)) : rest.length < s.length := by
  simp only [readOpener?, Option.bind_eq_bind, Option.bind_eq_some_iff] at h
  obtain ⟨inside, hopen, h⟩ := h
  split at h
  · have := Text.length_of_isPrefixOf? hopen
    have := length_readBetween? eq_of_readPath? h
    simp [closeBraces] at this
    omega
  · simp at h

/-- What follows a tag without a body is shorter. -/
theorem length_readInline? {s rest : Text} {node : Node}
    (h : readInline? s = some (node, rest)) : rest.length < s.length := by
  unfold readInline? at h
  split at h
  · next htag =>
    have := length_readBetween? eq_of_readName? htag
    simp_all [openBraces, closeBraces]
    omega
  · split at h
    · next htag =>
      have := length_readBetween? eq_of_readPath? htag
      simp_all [openBraces, closeBraces]
      omega
    · simp only [Option.map_eq_some_iff, Prod.exists, Prod.mk.injEq] at h
      obtain ⟨path, rest', htag, -, rfl⟩ := h
      have := length_readBetween? eq_of_readPath? htag
      simp [openBraces, closeBraces] at this
      omega

end Stencil.Template
