import Joinery.Arithmetic.Machine
import Joinery.Binary64.Thousandth

/-!
# Rounded values of arithmetic

The value of a text is the value of its lexemes rounded to thousandths. A text
with a character that arithmetic does not have is refused before it is read.
-/

namespace Joinery
namespace Arithmetic

/-- Why a text has no rounded value. -/
inductive Refusal
  /-- The text is empty or has a character that is not allowed. -/
  | notArithmetic
  /-- The lexemes are not an expression, divide by zero, or are too large. -/
  | failed
  | nestedTooDeeply
  /-- The value is infinite or missing. -/
  | notFinite
  deriving DecidableEq

/-- What a fault means for the whole text. -/
def Fault.refusal : Fault → Refusal
  | .malformed => .failed
  | .dividesByZero => .failed
  | .nestedTooDeeply => .nestedTooDeeply

/-- The value of the lexemes of a text. -/
def rawValue (text : Text) : Except Refusal Binary64 :=
  if text = [] ∨ !text.all isAllowed then .error .notArithmetic
  else match lexemes? text with
    | none => .error .failed
    | some lexemes => (value lexemes).mapError Fault.refusal

/-- A finite value rounded to thousandths. -/
def rounded (value : Binary64) : Except Refusal Binary64 :=
  if value.isFinite then value.roundThousandths.mapError fun _ => .failed
  else .error .notFinite

/-- The rounded value of a text without white space around it. -/
def evaluate (text : Text) : Except Refusal Binary64 := do
  rounded (← rawValue text)

end Arithmetic
end Joinery
