import Joinery.Text.Basic
import Joinery.Text.Quoted

/-!
# Code page 1252

Drawings are stored in the code page 1252, which has ASCII, the second half of
Latin 1, and some more signs. Every other character is escaped by its code point.
-/

namespace Joinery
namespace Text

/-- Code points of the bytes from `0x80` to `0x9f`; a zero stands for none. -/
def codePageSigns : List Nat := [
  0x20ac, 0x0, 0x201a, 0x192, 0x201e, 0x2026, 0x2020, 0x2021, 0x2c6, 0x2030, 0x160, 0x2039,
  0x152, 0x0, 0x17d, 0x0, 0x0, 0x2018, 0x2019, 0x201c, 0x201d, 0x2022, 0x2013, 0x2014, 0x2dc,
  0x2122, 0x161, 0x203a, 0x153, 0x0, 0x17e, 0x178]

/-- The byte of a character in the code page. -/
def codePageByte? (character : Char) : Option Nat :=
  let point := character.toNat
  if point < 0x80 ∨ (0xa0 ≤ point ∧ point ≤ 0xff) then some point
  else (codePageSigns.findIdx? (· == point)).map (0x80 + ·)

/-- Whether the code page has a character. -/
def inCodePage (character : Char) : Bool := (codePageByte? character).isSome

/-- A character outside of the code page: its code point behind a mark that tells
the count of digits. -/
def escapeCharacter (character : Char) : Text :=
  let point := character.toNat
  if point ≤ 0xff then "\\x".toList ++ hexadecimal 2 point
  else if point ≤ 0xffff then "\\U+".toList ++ hexadecimal 4 point
  else "\\U+".toList ++ hexadecimal 8 point

/-- The text in characters of the code page. -/
def escapeOutsideCodePage (text : Text) : Text :=
  text.flatMap fun character =>
    if inCodePage character then [character] else escapeCharacter character

/-- The bytes of a text in the code page, without characters that it does not
have. -/
def codePageBytes (text : Text) : List Nat := text.filterMap codePageByte?

end Text
end Joinery
