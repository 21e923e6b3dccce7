import Joinery.Text.Visible

/-!
# Quoted texts

A quoted text stands between single quotes, or between double quotes if that saves
escaping its own. Characters that are not visible are written by their code points.
-/

namespace Joinery
namespace Text

/-- Hexadecimal digits of a number, at least `width` of them. -/
def hexadecimal (width number : Nat) : List Char :=
  (Nat.toDigits 16 number).leftpad width '0'

/-- A code point behind a mark that tells the count of digits. -/
def escapePoint (point : Nat) : List Char :=
  if point ≤ 0xff then '\\' :: 'x' :: hexadecimal 2 point
  else if point ≤ 0xffff then '\\' :: 'u' :: hexadecimal 4 point
  else '\\' :: 'U' :: hexadecimal 8 point

/-- A character between quotes. -/
def quotedCharacter (shows : Char → Bool) (quote character : Char) : List Char :=
  if character = quote ∨ character = '\\' then ['\\', character]
  else match character with
  | '\n' => ['\\', 'n']
  | '\r' => ['\\', 'r']
  | '\t' => ['\\', 't']
  | other => if shows other then [other] else escapePoint other.toNat

/-- A text between quotes in which some characters are shown as they are. -/
def quotedWith (shows : Char → Bool) (text : List Char) : List Char :=
  let quote := if '\'' ∈ text ∧ '"' ∉ text then '"' else '\''
  quote :: text.flatMap (quotedCharacter shows quote) ++ [quote]

/-- A text between quotes. -/
def quoted (text : List Char) : List Char := quotedWith isVisible text

/-- A row of bytes between quotes. -/
def quotedBytes (bytes : List Nat) : List Char :=
  'b' :: quotedWith (fun character => isVisible character && character.toNat < 0x7f)
    (bytes.map Char.ofNat)

end Text
end Joinery
