import Joinery.Binary64.Decimal
import Joinery.Text.Quoted
import Joinery.Yaml.Moment

/-!
# Values of YAML documents

A value is what a node stands for. The parts of collections are given by their
numbers in a document, because a collection can be a part of itself. A document
writes its values where names are expected.
-/

namespace Joinery
namespace Yaml

/-- A value of a document. -/
inductive Value
  | null
  | truth (value : Bool)
  | integer (value : Int)
  | number (value : Binary64)
  | date (date : Date)
  | moment (moment : Moment)
  | bytes (values : List Nat)
  | text (content : Text)
  | sequence (items : List Nat)
  | mapping (entries : List (Nat × Nat))
  /-- Entries that may have equal keys. -/
  | pairs (entries : List (Nat × Nat))
  | set (members : List Nat)

namespace Value

/-- Whether a value is made of other values. -/
def isCollection : Value → Bool
  | .sequence _ | .mapping _ | .pairs _ | .set _ => true
  | _ => false

/-- Whether a value stands for nothing: null, falsehood, a zero, or something without
parts. -/
def isEmpty : Value → Bool
  | .null => true
  | .truth value => !value
  | .integer value => value == 0
  | .number value => value == 0
  | .date _ | .moment _ => false
  | .bytes values => values.isEmpty
  | .text content => content.isEmpty
  | .sequence items => items.isEmpty
  | .mapping entries | .pairs entries => entries.isEmpty
  | .set members => members.isEmpty

/-- The integer that a value equals, if there is one. Truth is one. -/
def integer? : Value → Option Int
  | .truth value => some (if value then 1 else 0)
  | .integer value => some value
  | .number value => if value.isInteger then value.truncate? else none
  | _ => none

/-- Whether two values are the same key. Numbers of different kinds are the same if
they are equal. -/
def isSameKey (left right : Value) : Bool :=
  match left, right with
  | .null, .null => true
  | .number .nan, .number .nan => true
  | .number left, .number right => left == right
  | .date left, .date right => left == right
  | .moment left, .moment right => left.isSame right
  | .bytes left, .bytes right => left == right
  | .text left, .text right => left == right
  | left, right =>
      match left.integer?, right.integer? with
      | some left, some right => left == right
      | _, _ => false

/-- Count of the decimal digits beyond which no integer is written. -/
def digitLimit : Nat := 4300

/-- Text of an integer, if it is not too long. -/
def integerText? (value : Int) : Option Text :=
  if (Text.ofNat value.natAbs).length ≤ digitLimit then some (Text.ofInt value) else none

end Value

/-- The values of a document by their numbers. -/
structure Document where
  values : Array Value
  root : Nat

namespace Document

/-- The value with a number. -/
def value (document : Document) (number : Nat) : Value := document.values.getD number .null

/-- Parts of a collection with commas between them. -/
def commaSeparated (parts : List Text) : Text := [',', ' '].intercalate parts

/-- A value inside of the collections around it. One of those that is met again is not
written again. There is no text for an integer that is too long. -/
def itemName? (document : Document) : (fuel : Nat) → (around : List Nat) → Nat → Option Text
  | 0, _, _ => some "...".toList
  | fuel + 1, around, number => do
      let item (part : Nat) := itemName? document fuel (number :: around) part
      let isOpen := number ∈ around
      match document.value number with
      | .null => return "None".toList
      | .truth value => return (if value then "True" else "False").toList
      | .integer value => Value.integerText? value
      | .number value => return value.text
      | .date date => return date.expression
      | .moment moment => return moment.expression
      | .bytes bytes => return Text.quotedBytes bytes
      | .text text => return Text.quoted text
      | .sequence items =>
          if isOpen then return "[...]".toList
          return '[' :: commaSeparated (← items.mapM item) ++ [']']
      | .mapping entries =>
          if isOpen then return '\x7b' :: "...".toList ++ ['\x7d']
          let parts ← entries.mapM fun (key, value) => do
            return (← item key) ++ ": ".toList ++ (← item value)
          return '\x7b' :: commaSeparated parts ++ ['\x7d']
      | .pairs entries =>
          if isOpen then return "[...]".toList
          let parts ← entries.mapM fun (key, value) => do
            return '(' :: commaSeparated [← item key, ← item value] ++ [')']
          return '[' :: commaSeparated parts ++ [']']
      | .set members =>
          if members.isEmpty then return "set()".toList
          return '\x7b' :: commaSeparated (← members.mapM item) ++ ['\x7d']

/-- A value where a name is expected, if no integer in it is too long. -/
def name? (document : Document) (number : Nat) : Option Text :=
  match document.value number with
  | .text text => some text
  | .date date => some date.text
  | .moment moment => some moment.text
  | _ => document.itemName? (document.values.size + 1) [] number

/-- The value of a key among the entries of a mapping. -/
def entry? (document : Document) (entries : List (Nat × Nat)) (key : Text) : Option Nat :=
  (entries.find? fun entry => (document.value entry.1).isSameKey (.text key)).map (·.2)

end Document

/-- What a library that reads documents decides. -/
structure Library where
  /-- The document in a text. -/
  load : Text → Except Fault Document

end Yaml
end Joinery
