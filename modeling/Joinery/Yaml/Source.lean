import Joinery.Text.Break
import Joinery.Yaml.Fault

/-!
# Source of YAML documents

Indentation carries meaning, so every character of a source knows its line and its
column. A null character, which no document may hold, stands at the end, so that
the end of a source has a place too.
-/

namespace Joinery
namespace Yaml

/-- A character and its place. -/
structure Mark where
  character : Char
  /-- Count of the characters before it. -/
  index : Nat
  line : Nat
  column : Nat
  deriving DecidableEq

/-- The characters of a document and the null character behind them. -/
abbrev Source := List Mark

namespace Source

/-- The character at the end of a source. -/
def ending : Char := Char.ofNat 0

/-- The byte order mark, which takes up no column. -/
def byteOrderMark : Char := Char.ofNat 0xfeff

/-- A character that ends a line. -/
def isBreak (character : Char) : Bool :=
  character == '\n' || character == Char.ofNat 0x85 || character == Char.ofNat 0x2028 ||
    character == Char.ofNat 0x2029

/-- What a character that ends a line means in a text: the separators of Unicode
stay, and every other is a line feed. -/
def breakText (character : Char) : Char :=
  if character == Char.ofNat 0x85 then '\n' else character

/-- The source of a text from a place on. -/
def ofTextAt : (index line column : Nat) → Text → Source
  | index, line, column, [] => [⟨ending, index, line, column⟩]
  | index, line, column, character :: rest =>
      ⟨character, index, line, column⟩ ::
        if isBreak character then ofTextAt (index + 1) (line + 1) 0 rest
        else if character == byteOrderMark then ofTextAt (index + 1) line column rest
        else ofTextAt (index + 1) line (column + 1) rest

/-- Whether a document may hold a character. -/
def isPrintable (character : Char) : Bool :=
  let point := character.toNat
  point == 0x9 || point == 0xa || point == 0xd || point == 0x85 ||
    (0x20 ≤ point && point ≤ 0x7e) || (0xa0 ≤ point && point ≤ 0xfffd) || 0x10000 ≤ point

/-- The source without a byte order mark at its start. -/
def dropByteOrderMark : Source → Source
  | mark :: rest => if mark.character == byteOrderMark then rest else mark :: rest
  | [] => []

/-- The source of a text. -/
def ofText (text : Text) : Except Fault Source :=
  if text.all isPrintable then
    .ok (dropByteOrderMark (ofTextAt 0 0 0 (Text.unifyBreaks text)))
  else .error .unprintable

/-- The text of a source. -/
def text (source : Source) : Text := source.map Mark.character

/-- The place at which a source starts. -/
def place (source : Source) : Mark := source.headD ⟨ending, 0, 0, 0⟩

/-- The first character. -/
def first (source : Source) : Char := (place source).character

/-- Whether a source starts with a character. -/
def startsWith (character : Char) (source : Source) : Bool := first source == character

/-- A character that ends a line, or the end. -/
def endsLine (character : Char) : Bool := character == ending || isBreak character

/-- A space, the end of a line, or the end. -/
def endsWord (character : Char) : Bool := character == ' ' || endsLine character

/-- A blank, the end of a line, or the end. -/
def isGap (character : Char) : Bool := character == '\t' || endsWord character

/-- Whether three equal characters with a gap behind them start the source. -/
def startsTriple (character : Char) (source : Source) : Bool :=
  text (source.take 3) == List.replicate 3 character && isGap (first (source.drop 3))

/-- Whether the mark of the start or the end of a document comes next. -/
def startsMarker (source : Source) : Bool :=
  startsTriple '-' source || startsTriple '.' source

/-- The source behind spaces. -/
def skipSpaces (source : Source) : Source := source.dropWhile (·.character == ' ')

/-- The source behind a comment, if one starts here. -/
def skipComment (source : Source) : Source :=
  if startsWith '#' source then source.dropWhile (!endsLine ·.character) else source

/-- The source behind one end of a line, if one comes here. -/
def skipBreak : Source → Source
  | mark :: rest => if isBreak mark.character then rest else mark :: rest
  | [] => []

/-- The source behind the rest of a line, if only spaces and a comment are in it. -/
def skipLine? (source : Source) : Option Source :=
  let behind := skipComment (skipSpaces source)
  if endsLine (first behind) then some (skipBreak behind) else none

/-- Value of a hexadecimal digit of ASCII. -/
def hexDigit? (character : Char) : Option Nat :=
  if character.isDigit then some (character.toNat - 48)
  else if 'a' ≤ character.toLower ∧ character.toLower ≤ 'f' then
    some (character.toLower.toNat - 87)
  else none

/-- The number that hexadecimal digits write. -/
def hexNumber? (digits : Text) : Option Nat :=
  digits.foldlM (fun value digit => (hexDigit? digit).map (16 * value + ·)) 0

end Source
end Yaml
end Joinery
