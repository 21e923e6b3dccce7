import Joinery.Binary64.Basic
import Joinery.Text.Piece
import Joinery.Text.Blank
import Joinery.Text.Digit

/-!
# Lexemes of arithmetic

Plain arithmetic is written with numerals, the four operators, parentheses and
white space. A numeral has digits, a point, or both, with at least one digit.
-/

namespace Joinery
namespace Arithmetic

/-- A sign in front of a number or between the terms of a sum. -/
inductive Sign
  | plus
  | minus
  deriving DecidableEq

/-- An operator between the factors of a product. -/
inductive Scaling
  | times
  | over
  deriving DecidableEq

/-- The smallest parts of an expression. -/
inductive Lexeme
  | number (value : Binary64)
  | sign (sign : Sign)
  | scaling (scaling : Scaling)
  | opening
  | closing
  deriving DecidableEq

namespace Lexeme

/-- The lexeme that is a single character. -/
def ofCharacter? : Char → Option Lexeme
  | '+' => some (.sign .plus)
  | '-' => some (.sign .minus)
  | '*' => some (.scaling .times)
  | '/' => some (.scaling .over)
  | '(' => some .opening
  | ')' => some .closing
  | _ => none

end Lexeme

/-- A character that arithmetic may hold. -/
def isAllowed (character : Char) : Bool :=
  Text.isDigit character || Text.isBlank character || character == '.' ||
    (Lexeme.ofCharacter? character).isSome

/-- Value of a numeral with the given digits before and behind the point. -/
def numeralValue (whole fraction : Text) : Binary64 :=
  Binary64.ofScientific false (Text.digitsValue (whole ++ fraction)) (-fraction.length)

/-- Reads a numeral: digits with or without a point and more digits behind it, or
a point and digits. -/
def readNumeral : Text.Reader Binary64 := fun character rest =>
  let digits := rest.takeWhile Text.isDigit
  if Text.isDigit character then
    match rest.drop digits.length with
    | '.' :: after =>
        let fraction := after.takeWhile Text.isDigit
        some (numeralValue (character :: digits) fraction,
          digits.length + 1 + fraction.length)
    | _ => some (numeralValue (character :: digits) [], digits.length)
  else if character = '.' ∧ digits ≠ [] then some (numeralValue [] digits, digits.length)
  else none

/-- Reads a lexeme. -/
def readLexeme : Text.Reader Lexeme := fun character rest =>
  match Lexeme.ofCharacter? character with
  | some lexeme => some (lexeme, 0)
  | none => (readNumeral character rest).map fun (value, count) => (.number value, count)

/-- Lexemes among the pieces of a text, if there is nothing else but white space. -/
def lexemesOfPieces? : List (Text.Piece Lexeme) → Option (List Lexeme)
  | [] => some []
  | .other character :: rest =>
      if Text.isBlank character then lexemesOfPieces? rest else none
  | .found lexeme _ :: rest => (lexemesOfPieces? rest).map (lexeme :: ·)

/-- Lexemes of a text, if it has nothing else but white space. -/
def lexemes? (text : Text) : Option (List Lexeme) :=
  lexemesOfPieces? (Text.pieces readLexeme text)

end Arithmetic
end Joinery
