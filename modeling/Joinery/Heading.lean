import Joinery.Command
import Joinery.Expression

/-!
# Headings

The outer form of a command. A board command has a word, an optional id in
brackets, dimensions, a name in double quotes, and options. A definition has a
dollar sign, a name, an equals sign, an expression, and perhaps a comment. Where a
text can be taken apart in several ways, the dimensions and the expression are as
short as possible and the white space in front of them is as long as possible.
-/

namespace Joinery

/-- A board command in its parts. -/
structure Heading where
  id : Option Text
  dimensions : Text
  name : Text
  options : Text
  deriving DecidableEq

/-- A definition in its parts. -/
structure Definition where
  name : Text
  expression : Text
  deriving DecidableEq

/-- The rest of a text, if it is a single line; a line break at its end does not
count. -/
def singleLine? (text : Text) : Option Text :=
  match text.span (· != '\n') with
  | (line, []) => some line
  | (line, [_]) => some line
  | _ => none

/-- The first of the suffixes of a text without `count`, `count - 1`, and so on
down to `least` characters that a reader accepts. -/
def firstSuffix? (read : Text → Option α) (text : Text) (least : Nat) :
    (count : Nat) → Option α
  | 0 => if least = 0 then read text else none
  | count + 1 =>
      if count + 1 < least then none
      else (read (text.drop (count + 1))).orElse fun _ =>
        firstSuffix? read text least count

namespace Heading

/-- The long s, the Kelvin sign, and the capital and small i of Turkish. They stand
for ASCII letters when case does not count. -/
def lookAlikes : List Nat := [0x17f, 0x212a, 0x130, 0x131]

/-- A letter that an id in a heading may have besides ASCII. -/
def isLookAlike (character : Char) : Bool :=
  lookAlikes.contains character.toNat

/-- The id at the start of a text, which is empty if there is none. -/
def idAt : Text → Text
  | [] => []
  | first :: rest =>
      if Text.isAsciiWordStart first || isLookAlike first then
        first :: rest.takeWhile fun character =>
          Text.isAsciiWordCharacter character || isLookAlike character
      else []

/-- An optional id in brackets, and the text behind it. -/
def bracketedId? : Text → Option (Option Text × Text)
  | '[' :: rest =>
      let id := idAt rest
      if id ≠ [] ∧ (rest.drop id.length).head? = some ']' then
        some (some id, rest.drop (id.length + 1))
      else none
  | rest => some (none, rest)

/-- The name and the options behind dimensions: white space, a name that is not
empty between double quotes, and a single line. -/
def nameAndOptions? (text : Text) : Option (Text × Text) :=
  match text.head?.map Text.isBlank, Text.stripStart text with
  | some true, '"' :: rest =>
      match rest.span (· != '"') with
      | ([], _) => none
      | (_, []) => none
      | (name, _ :: after) => (singleLine? (Text.stripStart after)).map (name, ·)
  | _, _ => none

/-- The shortest dimensions, at least one character, that a name and options
follow. The dimensions before the text are given in reverse. -/
def body? (id : Option Text) (before : Text) : Text → Option Heading
  | [] => none
  | character :: rest =>
      if character = '\n' then none
      else match nameAndOptions? rest with
        | some (name, options) => some ⟨id, (character :: before).reverse, name, options⟩
        | none => body? id (character :: before) rest

/-- The parts of a board command. -/
def ofLine? (line : Text) : Option Heading :=
  if Command.startsWith Command.boardWord line then
    match bracketedId? (line.drop Command.boardWord.length) with
    | none => none
    | some (id, rest) =>
        firstSuffix? (body? id []) rest 1 (rest.takeWhile Text.isBlank).length
  else none

end Heading

namespace Definition

/-- Whether a definition may end before a text: nothing follows, or a number sign
and the rest of the line. -/
def endsBefore (text : Text) : Bool :=
  (singleLine? text == some []) ||
    match Text.stripStart text with
    | '#' :: comment => (singleLine? comment).isSome
    | _ => false

/-- The shortest expression, at least one character, behind which a definition may
end. The expression before the text is given in reverse. -/
def body? (name : Text) (before : Text) : Text → Option Definition
  | [] => none
  | character :: rest =>
      if character = '\n' then none
      else if endsBefore rest then some ⟨name, (character :: before).reverse⟩
      else body? name (character :: before) rest

/-- The parts of a definition. -/
def ofLine? : Text → Option Definition
  | '$' :: rest =>
      let name := Expression.identifier rest
      if name = [] then none
      else match Text.stripStart (rest.drop name.length) with
        | '=' :: value =>
            firstSuffix? (body? name []) value 0 (value.takeWhile Text.isBlank).length
        | _ => none
  | _ => none

end Definition
end Joinery
