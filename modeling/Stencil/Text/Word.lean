import Stencil.Text.Category

/-!
# Word characters

A word character is a letter, a digit, another number or the underscore. Names in the template
language are made of them. File extensions admit a neighbouring class of a later version of the
database, in which combining marks and connecting punctuation count and numbers that are no digits
do not. The last class here holds the characters that have a visible form.
-/

namespace Stencil.Text

/-- Letters, digits and the underscore of ASCII. -/
def isAsciiWord (c : Char) : Bool := c.isAlphanum || c == '_'

/-- Word characters: letters, all kinds of numbers, and the underscore. -/
def isWord (c : Char) : Bool :=
  if c.toNat < 128 then isAsciiWord c
  else
    inRanges letterRanges c.toNat || inRanges digitRanges c.toNat
      || inRanges otherNumberRanges c.toNat

/-- Decimal digits of any script. -/
def isDecimal (c : Char) : Bool :=
  if c.toNat < 128 then c.isDigit else inRanges digitRanges c.toNat

/-- Characters of an extension: letters, decimal digits, marks, connectors, the two joiners and the
letters in circles and squares. -/
def isExtensionWord (c : Char) : Bool :=
  if c.toNat < 128 then isAsciiWord c
  else
    inRanges letterRanges c.toNat || inRanges digitRanges c.toNat || inRanges markRanges c.toNat
      || inRanges connectorRanges c.toNat || inRanges recentWordRanges c.toNat
      || inRanges [(0x200c, 0x200d), (0x24b6, 0x24e9), (0x1f130, 0x1f149), (0x1f150, 0x1f169),
        (0x1f170, 0x1f189)] c.toNat

/-- Whether a character has a visible form; of the blanks only the space does. -/
def isPrintable (c : Char) : Bool :=
  if c.toNat < 128 then 32 ≤ c.toNat && c.toNat ≤ 126
  else !inRanges unprintableRanges c.toNat

/-- Every letter and digit that core knows is a character of ASCII. -/
theorem toNat_lt_of_isAlphanum {c : Char} (h : c.isAlphanum) : c.toNat < 128 := by
  have bounds : (decide (c.val ≥ 65 ∧ c.val ≤ 90)
      || (decide (c.val ≥ 97) && decide (c.val ≤ 122))
      || (decide (c.val ≥ 48) && decide (c.val ≤ 57))) = true := h
  simp only [Bool.or_eq_true, Bool.and_eq_true, decide_eq_true_eq, UInt32.le_iff_toNat_le] at bounds
  rcases bounds with (bounds | bounds) | bounds <;>
    exact Nat.lt_of_le_of_lt bounds.2 (by decide)

end Stencil.Text
