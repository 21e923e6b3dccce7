import Joinery.Binary64.Basic
import Joinery.Text.Basic
import Joinery.Text.Blank
import Joinery.Text.Digit

/-!
# Colours

A colour is a number sign with three or six hexadecimal digits. Boards without a
colour get one of a palette by the order of their creation.
-/

namespace Joinery
namespace Palette

/-- Colours of boards without a colour of their own. -/
def colors : List String := [
  "#c9a05a", "#b8864a", "#d4b87a", "#a07040", "#e8c99a", "#8b6035",
  "#daa060", "#c08040", "#7a6050", "#d4a080", "#b09070", "#9a7055"]

/-- The colour of the board that is created at an index; the palette repeats. -/
def autoColor (index : Int) : Text :=
  (colors.getD (index.emod colors.length).toNat "").toList

/-- A hexadecimal digit of ASCII. -/
def isHexDigit (character : Char) : Bool :=
  character.isDigit || ('a' ≤ character && character ≤ 'f') ||
    ('A' ≤ character && character ≤ 'F')

/-- The colour at the start of a text. More or fewer digits are no colour. -/
def readColor? : Text → Option Text
  | '#' :: rest =>
      let digits := rest.takeWhile isHexDigit
      if digits.length = 3 ∨ digits.length = 6 then some ('#' :: digits) else none
  | _ => none

/-- Why a colour cannot be darkened. -/
inductive ColorFault
  /-- A channel is not a hexadecimal number, or has no product with the factor. -/
  | notANumber
  /-- A channel becomes infinite. -/
  | tooLarge
  deriving DecidableEq

/-- Value of a hexadecimal digit; decimal digits may be of any script. -/
def hexDigitValue? (character : Char) : Option Nat :=
  match Text.digitValue? character with
  | some value => some value
  | none =>
      if 'a' ≤ character ∧ character ≤ 'f' then some (character.toNat - 'a'.toNat + 10)
      else if 'A' ≤ character ∧ character ≤ 'F' then
        some (character.toNat - 'A'.toNat + 10)
      else none

/-- Value of a channel: two hexadecimal digits, or one digit with a sign before it
or white space beside it. -/
def channelValue? (first second : Char) : Option Int :=
  match hexDigitValue? first, hexDigitValue? second with
  | some high, some low => some (16 * high + low)
  | none, some low =>
      if Text.isMargin first || first = '+' then some low
      else if first = '-' then some (-low)
      else none
  | some high, none => if Text.isMargin second then some high else none
  | none, none => none

/-- Lower-case hexadecimal digits of an integer, at least two characters with the
sign. -/
def channelText : Int → Text
  | .ofNat value => (Nat.toDigits 16 value).leftpad 2 '0'
  | .negSucc value => '-' :: Nat.toDigits 16 (value + 1)

/-- The digits of a number that is cut to an integer. -/
def cutChannel (scaled : Binary64) : Except ColorFault Text :=
  match scaled.truncate? with
  | some channel => .ok (channelText channel)
  | none => .error (if scaled = .nan then .notANumber else .tooLarge)

/-- A channel times a factor, cut to an integer. -/
def scaleChannel (factor : Binary64) (first second : Char) : Except ColorFault Text :=
  match channelValue? first second with
  | none => .error .notANumber
  | some value => cutChannel (Binary64.ofIntQuotient value 1 * factor)

/-- The colour for a missing or short colour. -/
def darkDefault : Text := "#333".toList

/-- Digits of a colour with one digit for each channel are doubled. -/
def expand : Text → Text
  | [sign, red, green, blue] => [sign, red, red, green, green, blue, blue]
  | color => color

/-- A colour with each channel times a factor. -/
def darken (color : Option Text) (factor : Binary64) : Except ColorFault Text :=
  match expand (color.getD []) with
  | _ :: red₁ :: red₂ :: green₁ :: green₂ :: blue₁ :: blue₂ :: _ => do
      let red ← scaleChannel factor red₁ red₂
      let green ← scaleChannel factor green₁ green₂
      let blue ← scaleChannel factor blue₁ blue₂
      return '#' :: red ++ green ++ blue
  | _ => .ok darkDefault

end Palette
end Joinery
