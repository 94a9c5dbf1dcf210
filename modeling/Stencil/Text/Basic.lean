/-!
# Text

Text is a list of characters. This file holds what every other part does with it: which characters
are blank, how blanks are skipped and stripped, and how a text is searched, split and joined.
-/

namespace Stencil

/-- A text, one character after the other. -/
abbrev Text := List Char

namespace Text

/-- The blank characters beyond ASCII. -/
def wideBlanks : List Char :=
  ['\u0085', '\u00a0', '\u1680', '\u2000', '\u2001', '\u2002', '\u2003', '\u2004', '\u2005',
   '\u2006', '\u2007', '\u2008', '\u2009', '\u200a', '\u2028', '\u2029', '\u202f', '\u205f',
   '\u3000']

/-- Blank characters: tab to carriage return, the four separators U+001C to U+001F, the space, and
the blanks beyond ASCII. -/
def isBlank (c : Char) : Bool :=
  (9 ≤ c.toNat && c.toNat ≤ 13) || (28 ≤ c.toNat && c.toNat ≤ 32) || wideBlanks.contains c

/-- The text after its leading blanks. -/
def skipBlanks (s : Text) : Text := s.dropWhile isBlank

/-- Skipping blanks makes no text longer. -/
theorem length_skipBlanks_le (s : Text) : (skipBlanks s).length ≤ s.length :=
  (List.dropWhile_sublist _).length_le

/-- What follows a given beginning is as much shorter as the beginning is long. -/
theorem length_of_isPrefixOf? {start s rest : Text} (h : start.isPrefixOf? s = some rest) :
    start.length + rest.length = s.length := by
  induction start generalizing s with
  | nil =>
    obtain rfl : s = rest := Option.some.inj h
    exact Nat.zero_add _
  | cons c start ih =>
    cases s with
    | nil => contradiction
    | cons d s =>
      change (if c == d then start.isPrefixOf? s else none) = some rest at h
      split at h
      · have := ih h
        simp only [List.length_cons]
        omega
      · contradiction

/-- The text without the characters at either end that satisfy `p`. -/
def trim (p : Char → Bool) (s : Text) : Text := ((s.dropWhile p).reverse.dropWhile p).reverse

/-- The text without blanks at either end. -/
def strip (s : Text) : Text := trim isBlank s

/-- Whether a text has no character but blanks. -/
def isAllBlank (s : Text) : Bool := s.all isBlank

/-- The text before the first place where `needle` stands, and the text after it. -/
def cut? (needle : Text) : Text → Option (Text × Text)
  | [] => if needle.isEmpty then some ([], []) else none
  | c :: r =>
    match needle.isPrefixOf? (c :: r) with
    | some after => some ([], after)
    | none => (cut? needle r).map fun (before, after) => (c :: before, after)

/-- How many bytes a text takes in UTF-8. -/
def byteCount (s : Text) : Nat := s.foldl (fun n c => n + c.utf8Size) 0

/-- Whether `needle` stands somewhere in a text. -/
def includes (needle s : Text) : Bool := (cut? needle s).isSome

/-- The pieces of a text between its line breaks; there is one more than there are breaks. -/
def lines (s : Text) : List Text := s.splitOn '\n'

/-- The text with every occurrence of `old`, found from the left, replaced by `new`. -/
def replace (old new : Text) (s : Text) : Text :=
  match s with
  | [] => []
  | c :: r =>
    match old.isPrefixOf? (c :: r) with
    | some _ => new ++ replace old new (r.drop (old.length - 1))
    | none => c :: replace old new r
termination_by s.length
decreasing_by all_goals simp; try omega

/-- Whether `ending` stands at the end of a text. -/
def endsWith (ending s : Text) : Bool := ending.isSuffixOf s

/-- The text with the letters `A` to `Z` made small and all else kept. -/
def lowerAscii (s : Text) : Text := s.map Char.toLower

/-- Lexicographic order by code point. -/
def le : Text → Text → Bool
  | [], _ => true
  | _ :: _, [] => false
  | a :: r, b :: t => if a == b then le r t else a.toNat ≤ b.toNat

end Text

end Stencil
