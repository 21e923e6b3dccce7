import Joinery.Text.Basic

/-!
# Base 64

Four digits of base 64 write three bytes. Other characters between the digits say
nothing. Equal signs fill up the last four places and end the digits.
-/

namespace Joinery
namespace Text

/-- Value of a digit of base 64. -/
def base64Digit? (character : Char) : Option Nat :=
  if character.isUpper then some (character.toNat - 65)
  else if character.isLower then some (character.toNat - 71)
  else if character.isDigit then some (character.toNat + 4)
  else if character = '+' then some 62
  else if character = '/' then some 63
  else none

/-- The bytes that digits write behind `filled` digits of four, the bits of which
that are in no byte yet are `bits`. -/
def base64BytesFrom : (filled bits signs : Nat) → Text → Option (List Nat)
  | filled, _, _, [] => if filled = 0 then some [] else none
  | filled, bits, signs, character :: rest =>
      if character = '=' then
        if filled < 2 then base64BytesFrom filled bits signs rest
        else if 4 ≤ filled + signs + 1 then some []
        else base64BytesFrom filled bits (signs + 1) rest
      else match base64Digit? character, filled with
        | none, _ => base64BytesFrom filled bits signs rest
        | some digit, 0 => base64BytesFrom 1 digit 0 rest
        | some digit, 1 =>
            (base64BytesFrom 2 (digit % 16) 0 rest).map ((bits * 4 + digit / 16) :: ·)
        | some digit, 2 =>
            (base64BytesFrom 3 (digit % 4) 0 rest).map ((bits * 16 + digit / 4) :: ·)
        | some digit, _ => (base64BytesFrom 0 0 0 rest).map ((bits * 64 + digit) :: ·)

/-- The bytes that a text writes in base 64. -/
def base64Bytes? (text : Text) : Option (List Nat) := base64BytesFrom 0 0 0 text

end Text
end Joinery
