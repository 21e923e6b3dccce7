import Joinery.Token

/-!
# Coordinates and dimensions

Coordinates are separated by commas outside all brackets. Dimensions are separated
by the letter x, small or capital or Cyrillic, with white space around it, where a
number, a variable, a parenthesis or a reference follows. An x inside brackets
separates nothing, and neither does one that could belong to the name of a
variable: it touches that name and a digit follows.
-/

namespace Joinery

/-- Parts of a text between commas at depth zero, when brackets are open already
and a part has begun. -/
def splitCoordinatesFrom (depth : Int) (part : Text) : Text → List Text
  | [] => [part.reverse]
  | character :: rest =>
      if character = ',' ∧ depth = 0 then part.reverse :: splitCoordinatesFrom depth [] rest
      else
        splitCoordinatesFrom (depth + Token.depthChange character) (character :: part) rest

/-- Parts of a text between the commas outside all brackets. -/
def splitCoordinates (text : Text) : List Text := splitCoordinatesFrom 0 [] text

namespace Dimension

/-- The letters that separate dimensions. -/
def isSeparator (character : Char) : Bool :=
  character == 'x' || character == 'X' || character == 'х'

/-- A character with which a dimension starts. -/
def isStart (character : Char) : Bool :=
  character.isDigit || character == '$' || character == '(' || character == '{'

/-- What stands around a separator. -/
structure Separator where
  /-- White space stands before it. -/
  isSpaced : Bool
  /-- The dimension behind it starts with a digit. -/
  beforeDigit : Bool

/-- Reads a separator with the white space around it. -/
def readSeparator : Text.Reader Separator := fun character rest =>
  let blanks := (character :: rest).takeWhile Text.isBlank
  match (character :: rest).drop blanks.length with
  | letter :: after =>
      let next := after.dropWhile Text.isBlank
      match next with
      | start :: _ =>
          if isSeparator letter && isStart start then
            some (⟨!blanks.isEmpty, start.isDigit⟩,
              blanks.length + (after.length - next.length))
          else none
      | [] => none
  | [] => none

/-- Whether a text, given in reverse, ends with a variable. -/
def endsWithVariable (before : Text) : Bool :=
  (before.dropWhile Text.isAsciiWordCharacter).head? == some '$'

/-- Whether a separator behind a text, given in reverse, separates dimensions. -/
def separates (before : Text) (separator : Separator) : Bool :=
  Token.depthOf before == 0 &&
    (separator.isSpaced || !separator.beforeDigit || !endsWithVariable before)

/-- Parts between separators, behind a text and the start of a part, both given in
reverse. -/
def splitFrom (before part : Text) : List (Text.Piece Separator) → List Text
  | [] => [part.reverse]
  | .other character :: rest => splitFrom (character :: before) (character :: part) rest
  | .found separator text :: rest =>
      if separates before separator then
        part.reverse :: splitFrom (text.reverse ++ before) [] rest
      else splitFrom (text.reverse ++ before) (text.reverse ++ part) rest

end Dimension

/-- Parts of a text between the separators of dimensions. -/
def splitDimensions (text : Text) : List Text :=
  Dimension.splitFrom [] [] (Text.pieces Dimension.readSeparator text)

end Joinery
