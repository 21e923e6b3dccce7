import Joinery.Binary64.Decimal

/-!
# JSON documents

A document is written over several lines, two spaces further in at every level. Only
the characters that JSON forbids inside a text are escaped.
-/

namespace Joinery

/-- A JSON value. The fields of an object stand in their order. -/
inductive Json
  | null
  | bool (value : Bool)
  | integer (value : Int)
  | number (value : Binary64)
  | string (text : Text)
  | array (items : List Json)
  | object (fields : List (String × Json))

namespace Json

/-- A value that may be missing. -/
def ofOption (write : α → Json) : Option α → Json
  | some value => write value
  | none => .null

/-- A character inside a text. -/
def writeCharacter (character : Char) : Text :=
  match character with
  | '"' => ['\\', '"']
  | '\\' => ['\\', '\\']
  | '\n' => ['\\', 'n']
  | '\r' => ['\\', 'r']
  | '\t' => ['\\', 't']
  | other =>
      if other.toNat = 0x8 then ['\\', 'b']
      else if other.toNat = 0xc then ['\\', 'f']
      else if other.toNat < 0x20 then
        '\\' :: 'u' :: (Nat.toDigits 16 other.toNat).leftpad 4 '0'
      else [other]

/-- A text between double quotes. -/
def writeString (text : Text) : Text := '"' :: text.flatMap writeCharacter ++ ['"']

/-- A number; the ones that are not finite are written by their names. -/
def writeNumber : Binary64 → Text
  | .nan => "NaN".toList
  | .infinite negative => Binary64.signed negative "Infinity".toList
  | .finite negative units fits => Binary64.text (.finite negative units fits)

/-- A line break and the indentation of a level. -/
def newLine (level : Nat) : Text := '\n' :: List.replicate (2 * level) ' '

mutual

/-- A value at a level of indentation. -/
def write (level : Nat) : Json → Text
  | .null => "null".toList
  | .bool value => (if value then "true" else "false").toList
  | .integer value => Text.ofInt value
  | .number value => writeNumber value
  | .string text => writeString text
  | .array items =>
      if items.isEmpty then ['[', ']']
      else '[' :: newLine (level + 1) ++ writeItems (level + 1) items ++ newLine level ++ [']']
  | .object fields =>
      if fields.isEmpty then ['{', '}']
      else '{' :: newLine (level + 1) ++ writeFields (level + 1) fields ++ newLine level ++
        ['}']

/-- The items of an array. -/
def writeItems (level : Nat) : List Json → Text
  | [] => []
  | [item] => write level item
  | item :: rest => write level item ++ ',' :: newLine level ++ writeItems level rest

/-- The fields of an object. -/
def writeFields (level : Nat) : List (String × Json) → Text
  | [] => []
  | [(name, value)] => writeString name.toList ++ ':' :: ' ' :: write level value
  | (name, value) :: rest =>
      writeString name.toList ++ ':' :: ' ' :: write level value ++ ',' :: newLine level ++
        writeFields level rest

end

/-- Text of a document. -/
def text (document : Json) : Text := write 0 document

end Json
end Joinery
