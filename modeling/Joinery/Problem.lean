import Joinery.Arithmetic.Evaluate
import Joinery.Binary64.Decimal

/-!
# Problems of a design

A cause says what is wrong with one command, and `Cause.message` words it. A reader
goes on with the next command, unless the cause is fatal.
-/

namespace Joinery

/-- What is wrong with one command. -/
inductive Cause
  | notABoard
  | unknownCommand
  | notADefinition
  | unknownVariable (name : Text)
  | unknownBoard (id : Text)
  | unknownProperty (property id : Text)
  | endlessAngle (id : Text)
  | arithmetic (refusal : Arithmetic.Refusal) (text : Text)
  | duplicateId (id : Text)
  | dimensionCount (count : Nat) (text : Text)
  | positionCount
  | missingEnd
  | startCount
  | endCount
  | noCut
  | unknownFace (letter : Char)
  | noFace
  /-- A segment is too long for its length to be rounded. -/
  | tooLong
  /-- A cut names a side with a letter that only looks like the right one. -/
  | unknownSide
  /-- A session has read its text before. -/
  | spent
  deriving DecidableEq

namespace Cause

/-- A text between double quotes. -/
def quoted (text : Text) : String := "\"" ++ String.ofList text ++ "\""

/-- A text between square brackets. -/
def bracketed (text : Text) : String := "[" ++ String.ofList text ++ "]"

/-- Wording of a cause. -/
def message : Cause → String
  | .notABoard => "invalid board (expected: board[id] W x H x D \"name\")"
  | .unknownCommand => "unknown command"
  | .notADefinition => "invalid variable definition"
  | .unknownVariable name => "unknown variable $" ++ String.ofList name
  | .unknownBoard id => "unknown id " ++ bracketed id
  | .unknownProperty property id =>
      "unknown property ." ++ String.ofList property ++ " on " ++ bracketed id
  | .endlessAngle id => "infinite angle on " ++ bracketed id
  | .arithmetic .notArithmetic text =>
      "invalid expression " ++ quoted text ++ " (allowed: numbers, +, -, *, /, ())"
  | .arithmetic .failed text => "expression error " ++ quoted text
  | .arithmetic .nestedTooDeeply text => "expression nested too deeply " ++ quoted text
  | .arithmetic .notFinite text => "result of " ++ quoted text ++ " is not a number"
  | .duplicateId id => "duplicate id " ++ bracketed id
  | .dimensionCount count text =>
      "need 3 dimensions (W x H x D), got " ++ String.ofList (Text.ofNat count) ++ ": " ++
        quoted text
  | .positionCount => "position needs 3 values (X, Y, Z)"
  | .missingEnd => "'from' requires 'to'"
  | .startCount => "'from' needs 2 values (X1, Y1)"
  | .endCount => "'to' needs 2 values (X2, Y2)"
  | .noCut => "cut needs at least one 'left|right|top|bottom <value>'"
  | .unknownFace letter =>
      "invalid view '" ++ String.ofList [letter] ++ "', allowed: f, s, t"
  | .noFace => "empty view"
  | .tooLong => "segment too long"
  | .unknownSide => "unknown side"
  | .spent => "ParseSession already used; create a new session per parse"

/-- Whether a cause ends the reading of a design. -/
def isFatal : Cause → Bool
  | .endlessAngle _ | .tooLong | .unknownSide | .spent => true
  | _ => false

end Cause

/-- The rounded value of a text of plain arithmetic. -/
def evaluateArithmetic (text : Text) : Except Cause Binary64 :=
  let stripped := Text.strip text
  (Arithmetic.evaluate stripped).mapError fun refusal => .arithmetic refusal stripped

end Joinery
