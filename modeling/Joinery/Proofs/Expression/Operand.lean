import Joinery.Expression
import Joinery.Proofs.Arithmetic.Grammar

/-!
# Operands of expressions

An operand of an expression is a numeral, a variable, or a property of a board. An
expression is a tree of operands that is written with white space between its symbols.
Readers of references take an operand as a whole, because nothing that could belong to a
name comes right behind it.
-/

namespace Joinery
namespace Expression

open Arithmetic

/-- A name: letters, digits and low lines of ASCII, but no digit at first. -/
structure Identifier where
  text : Text
  starts : Text.startsWith Text.isAsciiWordStart text = true
  continues : text.all Text.isAsciiWordCharacter = true

/-- The name of a property: letters and digits of ASCII. -/
structure PropertyName where
  text : Text
  nonempty : text ≠ []
  alphanumeric : text.all Char.isAlphanum = true

/-- A number in an expression, or a reference to one. -/
inductive Operand
  | literal (numeral : Numeral)
  /-- The value of a variable. -/
  | named (name : Identifier)
  /-- A property of a board. -/
  | measured (id : Identifier) (name : PropertyName)

namespace Identifier

variable (name : Identifier)

theorem text_ne_nil : name.text ≠ [] := by
  intro empty
  have starts := name.starts
  rw [empty] at starts
  cases starts

/-- A name is read as a whole. -/
theorem identifier_append
    {rest : Text}
    (stops : Text.startsWith Text.isAsciiWordCharacter rest = false) :
    identifier (name.text ++ rest) = name.text := by
  have taken := Text.takeWhile_append_eq name.continues stops
  have starts := name.starts
  cases known : name.text with
  | nil => exact absurd known name.text_ne_nil
  | cons first others =>
      rw [known] at starts taken
      rw [Text.startsWith_cons] at starts
      rw [List.cons_append, identifier, if_pos starts]
      exact taken

end Identifier

namespace Operand

/-- The characters of an operand. -/
def text : Operand → Text
  | .literal numeral => numeral.text
  | .named name => '$' :: name.text
  | .measured id name => '{' :: (id.text ++ '.' :: (name.text ++ ['}']))

/-- The value of an operand, if everything that it refers to is known. -/
def value? (scope : Scope) : Operand → Option Binary64
  | .literal numeral => some numeral.value
  | .named name => scope.number? name.text
  | .measured id name => do
      (Scope.property (← scope.board? id.text) name.text id.text).toOption

/-- The characters of a reference to a property. -/
theorem mem_text_measured
    {id : Identifier}
    {name : PropertyName}
    {character : Char}
    (member : character ∈ (measured id name).text) :
    character ∈ ['{', '.', '}'] ∨ Text.isAsciiWordCharacter character = true := by
  simp only [text, List.mem_cons, List.mem_append, List.not_mem_nil, or_false] at member
  rcases member with rfl | member | rfl | member | rfl
  · exact Or.inl (by decide)
  · exact Or.inr (List.all_eq_true.mp id.continues character member)
  · exact Or.inl (by decide)
  · have alphanumeric := List.all_eq_true.mp name.alphanumeric character member
    exact Or.inr (by rw [Text.isAsciiWordCharacter, alphanumeric, Bool.true_or])
  · exact Or.inl (by decide)

end Operand

/-! ## Reading references -/

theorem readVariable_eq_none
    {character : Char}
    (different : character ≠ '$')
    (rest : Text) :
    readVariable character rest = none := by
  simp [readVariable, different]

theorem readVariable_text
    (name : Identifier)
    {rest : Text}
    (stops : Text.startsWith Text.isAsciiWordCharacter rest = false) :
    readVariable '$' (name.text ++ rest) = some (name.text, name.text.length) := by
  simp [readVariable, name.identifier_append stops, name.text_ne_nil]

theorem readProperty_eq_none
    {character : Char}
    (different : character ≠ '{')
    (rest : Text) :
    readProperty character rest = none := by
  simp [readProperty, different]

theorem readProperty_text (id : Identifier) (name : PropertyName) (rest : Text) :
    readProperty '{' (id.text ++ '.' :: (name.text ++ '}' :: rest)) =
      some (⟨id.text, name.text⟩, id.text.length + name.text.length + 2) := by
  have point : Text.startsWith Text.isAsciiWordCharacter
      ('.' :: (name.text ++ '}' :: rest)) = false := by
    rw [Text.startsWith_cons]
    decide
  have brace : Text.startsWith Char.isAlphanum ('}' :: rest) = false := by
    rw [Text.startsWith_cons]
    decide
  simp only [readProperty, id.identifier_append point, id.text_ne_nil, ne_eq, not_false_eq_true,
    and_self, if_true, List.drop_left, Text.takeWhile_append_eq name.alphanumeric brace,
    name.nonempty, List.head?_cons]

theorem readDistance_eq_none
    {character : Char}
    (different : character.toLower ≠ 'l')
    (rest : Text) :
    readDistance character rest = none := by
  unfold readDistance
  split
  next same => exact absurd same different
  next => rfl

end Expression
end Joinery
