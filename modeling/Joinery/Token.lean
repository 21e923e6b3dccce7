import Joinery.Text.Piece
import Joinery.Text.Blank
import Joinery.Text.Word

/-!
# Tokens

The options of a board are searched by tokens. Every token knows its offset and
how many brackets are open in front of it. Braces and parentheses count alike, and
the count goes below zero where a text closes more than it opens.
-/

namespace Joinery

/-- Kinds of tokens. -/
inductive Token.Kind
  | variable
  | word
  | openingBrace
  | closingBrace
  | openingParenthesis
  | closingParenthesis
  | comma
  | other
  deriving DecidableEq

/-- A word, a variable, or a single character. -/
structure Token where
  kind : Token.Kind
  text : Text
  position : Nat
  depth : Int

namespace Token

/-- Change of the bracket depth behind a character. -/
def depthChange (character : Char) : Int :=
  if character = '{' ∨ character = '(' then 1
  else if character = '}' ∨ character = ')' then -1
  else 0

/-- Opening less closing brackets of a text. -/
def depthOf : Text → Int
  | [] => 0
  | character :: rest => depthChange character + depthOf rest

/-- Change of the bracket depth behind a token. -/
def Kind.depthChange : Kind → Int
  | .openingBrace | .openingParenthesis => 1
  | .closingBrace | .closingParenthesis => -1
  | .variable | .word | .comma | .other => 0

/-- Kind of a token that is a single character. -/
def Kind.ofCharacter : Char → Kind
  | '{' => .openingBrace
  | '}' => .closingBrace
  | '(' => .openingParenthesis
  | ')' => .closingParenthesis
  | ',' => .comma
  | _ => .other

/-- Reads a token: a word or a variable as long as possible, or any character but
white space. -/
def read : Text.Reader Kind := fun character rest =>
  let more := (rest.takeWhile Text.isAsciiWordCharacter).length
  if Text.isBlank character then none
  else if Text.isAsciiWordCharacter character then some (.word, more)
  else if character = '$' ∧ 0 < more then some (.variable, more)
  else some (.ofCharacter character, 0)

/-- Tokens among pieces that start at an offset and a bracket depth. -/
def ofPieces (position : Nat) (depth : Int) : List (Text.Piece Kind) → List Token
  | [] => []
  | .other _ :: rest => ofPieces (position + 1) depth rest
  | .found kind text :: rest =>
      ⟨kind, text, position, depth⟩ ::
        ofPieces (position + text.length) (depth + kind.depthChange) rest

end Token

/-- Tokens of a text. -/
def tokens (text : Text) : List Token := Token.ofPieces 0 0 (Text.pieces Token.read text)

end Joinery
