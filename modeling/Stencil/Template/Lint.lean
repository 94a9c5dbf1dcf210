import Stencil.Template.Parse

/-!
# Checking templates

Mistakes that a hand-written template tends to have: a brace too many behind a closing tag, a
misspelt keyword, and blocks that are never closed. Rendering would not fail on any of them.
-/

namespace Stencil.Template

/-- The rules of the check. -/
inductive Rule
  /-- A brace too many behind a closing tag. -/
  | braceCollision
  /-- A misspelt keyword. -/
  | typo
  /-- As many opening as closing tags are expected. -/
  | blockCount
  /-- An opening tag without its closing tag. -/
  | unmatchedBlock
deriving DecidableEq, Repr

/-- The name of a rule. -/
def Rule.name : Rule → Text
  | braceCollision => "brace-collision".toList
  | typo => "typo".toList
  | blockCount => "block-count".toList
  | unmatchedBlock => "unmatched-block".toList

/-- A mistake; the line is zero if it concerns the whole template. -/
structure Mistake where
  template : Text
  line : Nat
  rule : Rule
  message : Text
deriving DecidableEq, Repr

/-- A mistake with its place. -/
def Mistake.text (m : Mistake) : Text :=
  m.template ++ (if m.line == 0 then [] else ':' :: Nat.toDigits 10 m.line) ++ " - ".toList
    ++ m.message

/-- A closing tag with a brace too many at the front of a line. -/
def readCollision? (s : Text) : Option Text := do
  let inside ← (openBraces ++ ['/']).isPrefixOf? s
  let word := inside.takeWhile (· != '\x7d')
  let closing := '\x7d' :: closeBraces
  if !word.isEmpty && closing.isPrefixOf (inside.dropWhile (· != '\x7d')) then
    some (openBraces ++ ['/'] ++ word ++ closing)
  else none

/-- The first closing tag with a brace too many in a line. -/
def collision? : Text → Option Text
  | [] => none
  | c :: r => (readCollision? (c :: r)).orElse fun _ => collision? r

/-- Misspelt keywords with what to say about them. -/
def typos : List (Text × Text) :=
  [("\x7b\x7b#fi ".toList,
      "Typo: \"\x7b\x7b#fi\" should be \"\x7b\x7b#if\"".toList),
   ("\x7b\x7b#elseif".toList,
      "Invalid syntax: \"\x7b\x7b#elseif\" should be a nested \x7b\x7b#if\x7d\x7d".toList),
   ("\x7b\x7belseif".toList,
      "Invalid syntax: \"\x7b\x7belseif\" is not supported".toList),
   ("\x7b\x7b #if".toList,
      "Invalid spacing: \"\x7b\x7b #if\" should be \"\x7b\x7b#if\"".toList),
   ("\x7b\x7b# if".toList,
      "Invalid spacing: \"\x7b\x7b# if\" should be \"\x7b\x7b#if\"".toList)]

/-- The mistakes of one line. -/
def lintLine (template : Text) (number : Nat) (line : Text) : List Mistake :=
  let collisions := (collision? line).toList.map fun tag =>
    ⟨template, number, .braceCollision,
      "Potential \x7d\x7d\x7d collision after block close: \"".toList ++ tag ++ ['"']⟩
  let misspelt := typos.filterMap fun (needle, message) =>
    if Text.includes needle line then some ⟨template, number, .typo, message⟩ else none
  collisions ++ misspelt

/-- How many places of a text satisfy `p`, which looks at the text from the place on. -/
def countPlaces (p : Text → Bool) : Text → Nat
  | [] => 0
  | c :: r => (if p (c :: r) then 1 else 0) + countPlaces p r

/-- Whether the word of a block of a kind stands here with a blank behind it. -/
def beginsBlock (kind : BlockKind) (s : Text) : Bool :=
  match kind.openMark.isPrefixOf? s with
  | some rest => rest.head?.any Text.isBlank
  | none => false

/-- The name of a kind as messages write it. -/
def BlockKind.shown (kind : BlockKind) (sign : Char) : Text :=
  openBraces ++ [sign] ++ kind.word ++ closeBraces

/-- The mistakes about blocks of a kind; the text has its comments taken out, but all its lines. -/
def lintKind (template stripped : Text) (kind : BlockKind) : List Mistake :=
  let opens := countPlaces (beginsBlock kind) stripped
  let closes := countPlaces kind.closeTag.isPrefixOf stripped
  let counts : List Mistake :=
    if opens == closes then []
    else
      [⟨template, 0, .blockCount,
        kind.shown '#' ++ " count (".toList ++ Nat.toDigits 10 opens ++ ") != ".toList
          ++ kind.shown '/' ++ " count (".toList ++ Nat.toDigits 10 closes ++ [')']⟩]
  let unmatched := (findBlocks kind 0 stripped).filterMap fun
    | .block _ => none
    | .unmatched offset =>
      some ⟨template, (stripped.take offset).count '\n' + 1, .unmatchedBlock,
        kind.shown '#' ++ " opened here is never closed".toList⟩
  counts ++ unmatched

/-- The mistakes of a template in the order of their lines. -/
def lint (source template : Text) : List Mistake :=
  let lines := (Text.lines source).zipIdx 1
  let mistakes := lines.flatMap (fun (line, number) => lintLine template number line)
    ++ BlockKind.all.flatMap (lintKind template (stripComments true source))
  mistakes.mergeSort fun a b => a.line ≤ b.line

end Stencil.Template
