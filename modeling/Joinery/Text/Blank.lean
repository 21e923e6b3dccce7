import Joinery.Text.Range

/-!
# White space

A blank is a character of the bidirectional classes for white space and
separators, or of the category of space separators: the ASCII controls from tab
to carriage return and from `U+001C` to `U+001F`, the space, and the wider spaces
of Unicode.
-/

namespace Joinery
namespace Text

/-- Code points of white space. -/
def blankRanges : List (Nat × Nat) := [
  (0x9, 0xd), (0x1c, 0x20), (0x85, 0x85), (0xa0, 0xa0), (0x1680, 0x1680), (0x2000, 0x200a),
  (0x2028, 0x2029), (0x202f, 0x202f), (0x205f, 0x205f), (0x3000, 0x3000)]

/-- A character of white space. -/
def isBlank (character : Char) : Bool := inRanges blankRanges character

/-- The text without white space at its start. -/
def stripStart (text : List Char) : List Char := text.dropWhile isBlank

/-- The text without white space at its end. -/
def stripEnd (text : List Char) : List Char :=
  (text.reverse.dropWhile isBlank).reverse

/-- The text without white space around it. -/
def strip (text : List Char) : List Char := stripEnd (stripStart text)

/-- White space that may stand around a number. -/
def isMargin (character : Char) : Bool :=
  isBlank character && !(28 ≤ character.toNat && character.toNat ≤ 31)

/-- The text without the white space that may stand around a number. -/
def stripMargins (text : List Char) : List Char :=
  ((text.dropWhile isMargin).reverse.dropWhile isMargin).reverse

end Text
end Joinery
