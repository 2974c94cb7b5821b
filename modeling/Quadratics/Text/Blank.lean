/-!
# Blanks

The blanks are the code points with the property `White_Space`: the plain space,
the tab and line controls, the no-break space, and the spaces and separators of
typography.  They may stand around the signs of an equation, and are trimmed
from the text that a message cites.
-/

namespace Quadratics.Text

set_option autoImplicit false

/-! ## Sets of code points

A set of code points is given by the ascending list of the points where
membership changes: it holds from the first to just before the second, from the
third to just before the fourth, and so on.
-/

/-- Is a character in the set whose borders are listed?  It is when an odd number
of borders are at or below it. -/
def within (borders : List Nat) (character : Char) : Bool :=
  (borders.takeWhile fun border => decide (border ≤ character.toNat)).length % 2 == 1

/-! ## Blanks in a text -/

/-- Where the blanks begin and end. -/
def blanks : List Nat :=
  [ 0x9, 0xe, 0x20, 0x21, 0x85, 0x86, 0xa0, 0xa1, 0x1680, 0x1681, 0x2000, 0x200b,
    0x2028, 0x202a, 0x202f, 0x2030, 0x205f, 0x2060, 0x3000, 0x3001]

/-- Is a character a blank? -/
def isBlank (character : Char) : Bool :=
  within blanks character

/-- The text after its leading blanks. -/
def skipBlanks (text : List Char) : List Char :=
  text.dropWhile isBlank

/-- The text without the blanks at its two ends. -/
def trim (text : List Char) : List Char :=
  (skipBlanks (skipBlanks text).reverse).reverse

/-- Skipping blanks never lengthens a text. -/
theorem length_skipBlanks_le (text : List Char) : (skipBlanks text).length ≤ text.length :=
  (List.dropWhile_sublist isBlank).length_le

end Quadratics.Text
