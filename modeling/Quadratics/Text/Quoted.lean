import Quadratics.Text.Blank
import Quadratics.Text.ExtendingMarks
import Quadratics.Text.Unprintable

/-!
# Quoted text

Messages cite characters and slices of text between quotes.  Inside, the quote
itself and the backslash are escaped, the four common controls have their short
names, and a character that would not be seen as itself is given by its code
point: one that does not print, cannot stand alone, or leaves no mark.
Every other character is cited as it is.
-/

namespace Quadratics.Text

set_option autoImplicit false

/-! ## Characters -/

/-- Where the code points with the property `Default_Ignorable_Code_Point` begin and end:
fillers, joiners, selectors and other characters that show nothing where they are not
understood.  The list is that of Unicode 17. -/
def defaultIgnorable : List Nat :=
  [ 0xad, 0xae, 0x34f, 0x350, 0x61c, 0x61d, 0x115f, 0x1161, 0x17b4, 0x17b6, 0x180b, 0x1810,
    0x200b, 0x2010, 0x202a, 0x202f, 0x2060, 0x2070, 0x3164, 0x3165, 0xfe00, 0xfe10, 0xfeff,
    0xff00, 0xffa0, 0xffa1, 0xfff0, 0xfff9, 0x1bca0, 0x1bca4, 0x1d173, 0x1d17b, 0xe0000, 0xe1000]

/-- A character given by its code point, in hexadecimal. -/
def codePoint (character : Char) : List Char :=
  ['\\', 'u', '\x7b'] ++ Nat.toDigits 16 character.toNat ++ ['\x7d']

/-- Can a character be seen, as itself, in a citation? -/
def isVisible (character : Char) : Bool :=
  !within extendingMarks character && !within defaultIgnorable character &&
    !within unprintable character

/-- A character as it is cited between the given quotes. -/
def cited (quote character : Char) : List Char :=
  if character = '\x00' then ['\\', '0']
  else if character = '\t' then ['\\', 't']
  else if character = '\n' then ['\\', 'n']
  else if character = '\r' then ['\\', 'r']
  else if character = quote ∨ character = '\\' then ['\\', character]
  else if isVisible character then [character]
  else codePoint character

/-! ## Texts -/

/-- A text between the given quotes. -/
def quoted (quote : Char) (text : List Char) : List Char :=
  quote :: text.flatMap (cited quote) ++ [quote]

/-- A character between single quotes. -/
def quotedCharacter (character : Char) : String :=
  String.ofList (quoted '\x27' [character])

/-- A text between double quotes. -/
def quotedText (text : List Char) : String :=
  String.ofList (quoted '"' text)

end Quadratics.Text
