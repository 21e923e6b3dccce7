import Joinery.Binary64.Numeral
import Joinery.Text.Lower
import Joinery.Yaml.Fault

/-!
# Numerals of YAML documents

A scalar without quotes is a number if it has the form of one. What a number is worth
is asked for more texts than those, because a tag can make a number of any text.
-/

namespace Joinery
namespace Yaml
namespace Numeral

/-- A digit or a low line. -/
def isDigitOrGap (character : Char) : Bool := character.isDigit || character == '_'

/-- Whether a text is a digit and then digits and low lines. -/
def isGrouped (text : Text) : Bool := text.head?.any Char.isDigit && text.all isDigitOrGap

/-- Whether a text is a part of a number in base sixty behind the first one. -/
def isSixtieth : Text → Bool
  | [ones] => ones.isDigit
  | [tens, ones] => '0' ≤ tens && tens ≤ '5' && ones.isDigit
  | _ => false

/-- Whether a text without sign has the form of an integer in base two, eight,
sixteen, ten or sixty. -/
def isNatural : Text → Bool
  | ['0'] => true
  | '0' :: 'b' :: digits => !digits.isEmpty && digits.all (· ∈ ['0', '1', '_'])
  | '0' :: 'x' :: digits =>
      !digits.isEmpty && digits.all fun digit =>
        isDigitOrGap digit || ('a' ≤ digit.toLower && digit.toLower ≤ 'f')
  | '0' :: digits => digits.all fun digit => digit == '_' || ('0' ≤ digit && digit ≤ '7')
  | text =>
      match text.splitOn ':' with
      | first :: parts => isGrouped first && parts.all isSixtieth
      | [] => false

/-- Whether a text has the form of an integer. -/
def isInteger (text : Text) : Bool := isNatural (Binary64.splitSign text).2

/-- Whether an exponent is missing, or has a sign and digits. -/
def isExponent : Text → Bool
  | [] => true
  | mark :: sign :: digits =>
      mark.toLower == 'e' && (sign == '-' || sign == '+') && !digits.isEmpty &&
        digits.all Char.isDigit
  | _ => false

/-- Whether a text starts with a point and goes on with digits and an exponent. -/
def isFraction : Text → Bool
  | '.' :: rest => isExponent (rest.dropWhile isDigitOrGap)
  | _ => false

/-- Whether parts make up a number in base sixty whose last part has a point. -/
def isSixtieths (first : Text) (parts : List Text) : Bool :=
  match parts.getLast? with
  | none => false
  | some last =>
      let (whole, fraction) := last.span (· != '.')
      isGrouped first && parts.dropLast.all isSixtieth && isSixtieth whole &&
        fraction.head? == some '.' && (fraction.drop 1).all isDigitOrGap

/-- Whether a text has the form of a number with a point. -/
def hasPoint (text : Text) : Bool :=
  let body := (Binary64.splitSign text).2
  let whole := body.takeWhile isDigitOrGap
  (isGrouped whole && isFraction (body.drop whole.length)) ||
    (text.head? == some '.' && (text.drop 1).head?.any Char.isDigit && isFraction text) ||
    match body.splitOn ':' with
    | first :: parts => isSixtieths first parts
    | [] => false

/-- Spellings of infinity. -/
def infinityWords : List String := [".inf", ".Inf", ".INF"]

/-- Spellings of the missing number. -/
def missingWords : List String := [".nan", ".NaN", ".NAN"]

/-- Whether a text has the form of a number that is no integer. -/
def isNumber (text : Text) : Bool :=
  hasPoint text || String.ofList (Binary64.splitSign text).2 ∈ infinityWords ||
    String.ofList text ∈ missingWords

/-- Value of a digit below a base of at most sixteen. Decimal digits may be of any
script. -/
def digitBelow? (base : Nat) (character : Char) : Option Nat :=
  let value? := (Text.digitValue? character).or <|
    if 'a' ≤ character.toLower ∧ character.toLower ≤ 'f' then some (character.toLower.toNat - 87)
    else none
  value?.filter (· < base)

/-- Letter of the mark that may stand in front of digits of a base. -/
def baseMark? : Nat → Option Char
  | 2 => some 'b'
  | 8 => some 'o'
  | 16 => some 'x'
  | _ => none

/-- The digits behind a mark of their base. -/
def dropBaseMark (base : Nat) : Text → Text
  | '0' :: mark :: digits =>
      if baseMark? base = some mark.toLower then digits else '0' :: mark :: digits
  | digits => digits

/-- Count of the decimal digits that no integer exceeds. -/
def digitLimit : Nat := 4300

/-- The integer that digits of a base write, with a sign and white space around. -/
def inBase (base : Nat) (text : Text) : Except Fault Int :=
  let (negative, body) := Binary64.splitSign (Text.stripMargins text)
  let digits := dropBaseMark base body
  let value? := digits.foldlM (fun value digit => (digitBelow? base digit).map (base * value + ·)) 0
  match value? with
  | none => .error (.scalar .notANumber)
  | some value =>
      if digits = [] ∨ (base = 10 ∧ digitLimit < digits.length) then
        .error (.scalar .notANumber)
      else .ok (if negative then -(value : Int) else value)

/-- The integer that parts in base sixty write. -/
def inSixties (parts : List Text) : Except Fault Int :=
  parts.foldlM (fun value part => do return 60 * value + (← inBase 10 part)) 0

/-- The integer that a text without sign and low lines writes. -/
def natural : Text → Except Fault Int
  | [] => .error (.scalar .emptyNumber)
  | ['0'] => .ok 0
  | '0' :: 'b' :: digits => inBase 2 digits
  | '0' :: 'x' :: digits => inBase 16 digits
  | '0' :: digits => inBase 8 ('0' :: digits)
  | text => if ':' ∈ text then inSixties (text.splitOn ':') else inBase 10 text

/-- The integer that a text writes. -/
def integer (text : Text) : Except Fault Int := do
  let (negative, body) := Binary64.splitSign (text.filter (· != '_'))
  let value ← natural body
  return if negative then -value else value

/-- The sum of parts in base sixty, the last of which are first. -/
def sumSixties : (place : Nat) → (sum : Binary64) → List Binary64 → Except Fault Binary64
  | _, sum, [] => .ok sum
  | place, sum, part :: parts =>
      match Binary64.ofIntQuotient (60 ^ place : Nat) 1 with
      | .infinite _ => .error (.scalar .tooLarge)
      | base => sumSixties (place + 1) (sum + part * base) parts

/-- A text as a number. -/
def partNumber (text : Text) : Except Fault Binary64 :=
  match Binary64.ofText? text with
  | some number => .ok number
  | none => .error (.scalar .notANumber)

/-- The number that a text without sign and low lines writes in small letters. -/
def magnitude (text : Text) : Except Fault Binary64 := do
  if text = ".inf".toList then return .infinite false
  else if text = ".nan".toList then return .nan
  else if ':' ∈ text then
    let parts ← (text.splitOn ':').mapM partNumber
    sumSixties 0 0 parts.reverse
  else partNumber text

/-- The number that a text writes. -/
def number (text : Text) : Except Fault Binary64 := do
  let plain := Text.lower (text.filter (· != '_'))
  if plain = [] then throw (.scalar .emptyNumber)
  let (negative, body) := Binary64.splitSign plain
  let value ← magnitude body
  return if negative then -value else value

end Numeral
end Yaml
end Joinery
