import Joinery.Binary64.Basic
import Joinery.Text.Basic
import Joinery.Text.Blank
import Joinery.Text.Digit

/-!
# Numerals

A numeral writes a number with a sign, digits of any script, a point and an
exponent. Single underscores may stand between digits, and white space around the
whole. Infinities and the missing number are written by their names.
-/

namespace Joinery
namespace Binary64

/-- Whether every underscore stands between two digits. -/
def groupsDigits : (afterDigit : Bool) → Text → Bool
  | _, [] => true
  | afterDigit, '_' :: rest =>
      afterDigit && rest.head?.any Text.isDigit && groupsDigits false rest
  | _, character :: rest => groupsDigits (Text.isDigit character) rest

/-- A sign that may stand in front of a text, and the text behind it. -/
def splitSign : Text → Bool × Text
  | '-' :: rest => (true, rest)
  | '+' :: rest => (false, rest)
  | text => (false, text)

/-- The number that a name stands for, in capitals or small letters. -/
def ofName? (negative : Bool) (text : Text) : Option Binary64 :=
  match String.ofList (text.map Char.toLower) with
  | "inf" | "infinity" => some (.infinite negative)
  | "nan" => some .nan
  | _ => none

/-- The exponent behind the digits of a numeral, which is zero if none is written. -/
def exponent? : Text → Option Int
  | [] => some 0
  | mark :: rest =>
      let (negative, digits) := splitSign rest
      if mark.toLower = 'e' ∧ digits ≠ [] ∧ digits.all Text.isDigit then
        let size : Int := Text.digitsValue digits
        some (if negative then -size else size)
      else none

/-- An exponent between bounds beyond which the number is zero or infinite, given
the count of digits in front of it. -/
def boundExponent (count : Nat) (exponent : Int) : Int :=
  max (-(400 + count)) (min (400 + count) exponent)

/-- The number that digits, a point and an exponent write. -/
def ofDigits? (negative : Bool) (text : Text) : Option Binary64 :=
  let whole := text.takeWhile Text.isDigit
  let behind := text.drop whole.length
  let fraction :=
    match behind with
    | '.' :: rest => rest.takeWhile Text.isDigit
    | _ => []
  let tail := if behind.head? = some '.' then behind.drop (fraction.length + 1) else behind
  let digits := whole ++ fraction
  if digits = [] then none
  else (exponent? tail).map fun exponent =>
    ofScientific negative (Text.digitsValue digits)
      (boundExponent digits.length exponent - fraction.length)

/-- The number that a numeral writes. -/
def ofText? (text : Text) : Option Binary64 :=
  let stripped := Text.stripMargins text
  if groupsDigits false stripped then
    let (negative, body) := splitSign (stripped.filter (· != '_'))
    (ofName? negative body).or (ofDigits? negative body)
  else none

end Binary64
end Joinery
