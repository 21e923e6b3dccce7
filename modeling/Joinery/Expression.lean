import Joinery.Problem
import Joinery.Property
import Joinery.Binary64.Root
import Joinery.Text.Piece
import Joinery.Text.Word

/-!
# Expressions

An expression is plain arithmetic with references in it. References are replaced
by numbers in three rounds: variables, properties of boards, and distances. A
number is written without an exponent, so that what results is plain arithmetic.
-/

namespace Joinery

/-- What expressions can refer to. -/
structure Scope where
  number? : Text → Option Binary64
  board? : Text → Option (Board Binary64)

namespace Scope

/-- The value of a property of a board by name. -/
def property (board : Board Binary64) (name id : Text) : Except Cause Binary64 :=
  match Property.ofName? name with
  | some property =>
      if property.isTurned ∧ !(board.angle == 0) then
        match board.turn? with
        | some turn => .ok (board.turnedMeasure turn property)
        | none => .error (.endlessAngle id)
      else .ok (board.uprightMeasure property)
  | none =>
      if !(board.angle == 0) ∧ board.turn?.isNone then .error (.endlessAngle id)
      else .error (.unknownProperty name id)

end Scope

namespace Expression

/-- The identifier at the start of a text: letters, digits and low lines of ASCII,
but no digit at first. It is empty if there is none. -/
def identifier (text : Text) : Text :=
  match text with
  | first :: _ =>
      if Text.isAsciiWordStart first then text.takeWhile Text.isAsciiWordCharacter else []
  | [] => []

/-- Reads a variable: a dollar sign and an identifier. -/
def readVariable : Text.Reader Text := fun character rest =>
  let name := identifier rest
  if character = '$' ∧ name ≠ [] then some (name, name.length) else none

/-- A property of a board that a text refers to. -/
structure PropertyReference where
  id : Text
  property : Text

/-- Reads a reference to a property: an identifier, a point, and letters and digits
of ASCII, in braces. -/
def readProperty : Text.Reader PropertyReference := fun character rest =>
  let id := identifier rest
  if character = '{' ∧ id ≠ [] then
    match rest.drop id.length with
    | '.' :: after =>
        let property := after.takeWhile Char.isAlphanum
        if property ≠ [] ∧ (after.drop property.length).head? = some '}' then
          some (⟨id, property⟩, id.length + property.length + 2)
        else none
    | _ => none
  else none

/-- The distance between two points whose coordinates are given as texts. -/
structure DistanceReference where
  x1 : Text
  y1 : Text
  x2 : Text
  y2 : Text

/-- A part of a text before the first of a character, and the text behind that, if
the part is not empty. -/
def partBefore? (character : Char) (text : Text) : Option (Text × Text) :=
  match text.span (· != character) with
  | ([], _) => none
  | (_, []) => none
  | (part, _ :: rest) => some (part, rest)

/-- Reads a distance: the letters of its name in any case, and four arguments in
parentheses. An argument ends at the next comma, and the last one at the next
closing parenthesis. -/
def readDistance : Text.Reader DistanceReference := fun character rest =>
  match character.toLower, rest with
  | 'l', second :: third :: '(' :: arguments => do
      guard (second.toLower = 'e' ∧ third.toLower = 'n')
      let (x1, rest) ← partBefore? ',' arguments
      let (y1, rest) ← partBefore? ',' rest
      let (x2, rest) ← partBefore? ',' rest
      let (y2, rest) ← partBefore? ')' rest
      return (⟨x1, y1, x2, y2⟩, 3 + arguments.length - rest.length)
  | _, _ => none

/-- Text of the value of a variable. -/
def writeVariable (scope : Scope) (name : Text) : Except Cause Text :=
  match scope.number? name with
  | some value => .ok value.plainText
  | none => .error (.unknownVariable name)

/-- Text of the value of a property. -/
def writeProperty (scope : Scope) (reference : PropertyReference) : Except Cause Text :=
  match scope.board? reference.id with
  | some board => do
      return (← Scope.property board reference.property reference.id).plainText
  | none => .error (.unknownBoard reference.id)

/-- Text of a distance. -/
def writeDistance (reference : DistanceReference) : Except Cause Text := do
  let x1 ← evaluateArithmetic reference.x1
  let y1 ← evaluateArithmetic reference.y1
  let x2 ← evaluateArithmetic reference.x2
  let y2 ← evaluateArithmetic reference.y2
  return ((x2 - x1).hypot (y2 - y1)).plainText

/-- A text with the values of its variables. -/
def withVariables (scope : Scope) (text : Text) : Except Cause Text :=
  Text.replace (writeVariable scope) (Text.pieces readVariable text)

/-- A text with the values of its properties. -/
def withProperties (scope : Scope) (text : Text) : Except Cause Text :=
  Text.replace (writeProperty scope) (Text.pieces readProperty text)

/-- A text with the values of its distances. -/
def withDistances (text : Text) : Except Cause Text :=
  Text.replace writeDistance (Text.pieces readDistance text)

end Expression

/-- The rounded value of an expression. -/
def evaluate (scope : Scope) (text : Text) : Except Cause Binary64 := do
  let plain ← Expression.withVariables scope text
  let plain ← Expression.withProperties scope plain
  let plain ← Expression.withDistances plain
  evaluateArithmetic plain

end Joinery
