import Joinery.Proofs.Arithmetic.Shape
import Joinery.Proofs.Expression.Operand
import Joinery.Proofs.Text.Spelling
import Joinery.Proofs.Token.Depth

/-!
# Formulas

A formula is what is written for a number: an operand, or formulas with signs, operators,
parentheses and the name of the distance around them, and white space between all of these.
A row of formulas has commas between them, so that a distance is measured by a row of four.
-/

namespace Joinery
namespace Expression

open Arithmetic

/-- A row of some number of formulas whose operands are all of a kind. A single formula is
such a row, and one relation for both lets an induction go through the rows in formulas. -/
inductive IsRow (isAllowed : Operand → Prop) : Nat → Text → Prop
  | operand (argument : Operand) (allowed : isAllowed argument) : IsRow isAllowed 1 argument.text
  | signed (sign : Sign) {gap inner : Text} (blank : gap.all Text.isBlank = true)
      (row : IsRow isAllowed 1 inner) : IsRow isAllowed 1 (sign.character :: (gap ++ inner))
  | enclosed {gap inner trail : Text} (blank : gap.all Text.isBlank = true)
      (trailBlank : trail.all Text.isBlank = true) (row : IsRow isAllowed 1 inner) :
      IsRow isAllowed 1 ('(' :: (gap ++ (inner ++ (trail ++ [')']))))
  | combined {mark : Char} (isOperator : mark ∈ operators) {left gap trail right : Text}
      (blank : gap.all Text.isBlank = true) (trailBlank : trail.all Text.isBlank = true)
      (leftRow : IsRow isAllowed 1 left) (rightRow : IsRow isAllowed 1 right) :
      IsRow isAllowed 1 (left ++ (gap ++ mark :: (trail ++ right)))
  | distance (name : Text.Spelling "len".toList) {gap inner trail : Text}
      (blank : gap.all Text.isBlank = true) (trailBlank : trail.all Text.isBlank = true)
      (row : IsRow isAllowed 4 inner) :
      IsRow isAllowed 1 (name.text ++ '(' :: (gap ++ (inner ++ (trail ++ [')']))))
  | next {count : Nat} {first gap trail rest : Text}
      (blank : gap.all Text.isBlank = true) (trailBlank : trail.all Text.isBlank = true)
      (firstRow : IsRow isAllowed 1 first) (restRow : IsRow isAllowed count rest) :
      IsRow isAllowed (count + 1) (first ++ (gap ++ ',' :: (trail ++ rest)))

/-- A formula with any operands. -/
def IsFormula (text : Text) : Prop := IsRow (fun _ => True) 1 text

theorem isFormula_digit (character : Char) (isDigit : Text.isDigit character = true) :
    IsFormula [character] :=
  .operand (.literal ⟨[character], none, by simp [isDigit], rfl, Or.inl (List.cons_ne_nil _ _)⟩)
    trivial

/-- An expression without distances is a formula. -/
theorem isFormula_of_isExpression
    {text : Text}
    (isExpression : IsExpression Operand.text text) :
    IsFormula text := by
  refine IsExpression.induction isExpression ?operand ?signed ?enclosed ?combined
  case operand => exact fun argument => .operand argument trivial
  case signed => exact fun sign gap inner blank _ row => .signed sign blank row
  case enclosed =>
    exact fun gap inner trail blank trailBlank _ row => .enclosed blank trailBlank row
  case combined =>
    exact fun mark isOperator left gap trail right blank trailBlank _ _ leftRow rightRow =>
      .combined isOperator blank trailBlank leftRow rightRow

/-! ## Operands and names -/

theorem isBlank_of_continues
    {character : Char}
    (continues : Numeral.continues character = true) :
    Text.isBlank character = false := by
  rw [← Bool.not_eq_true]
  intro blank
  rw [Numeral.continues_of_isBlank blank] at continues
  cases continues

theorem PropertyName.isWord (name : PropertyName) :
    name.text.all Text.isAsciiWordCharacter = true := by
  refine List.all_eq_true.mpr fun character member => ?_
  rw [Text.isAsciiWordCharacter, List.all_eq_true.mp name.alphanumeric character member,
    Bool.true_or]

/-- An operand is a word, for white space. -/
theorem Operand.isPhrase_text (operand : Operand) : Text.IsPhrase operand.text := by
  cases operand with
  | literal numeral =>
      exact Text.isPhrase_of_forall numeral.text_ne_nil fun character member =>
        isBlank_of_continues (numeral.continues_of_mem character member)
  | named name =>
      refine Text.isPhrase_of_forall (List.cons_ne_nil _ _) fun character member => ?_
      rcases List.mem_cons.mp member with rfl | member
      · decide
      · exact Text.isBlank_of_isAsciiWordCharacter
          (List.all_eq_true.mp name.continues character member)
  | measured id name =>
      refine Text.isPhrase_of_forall (List.cons_ne_nil _ _) fun character member => ?_
      rcases mem_text_measured member with known | isWord
      · have none : ['{', '.', '}'].all (!Text.isBlank ·) = true := by decide
        exact Text.forall_mem_of_all_not none character known
      · exact Text.isBlank_of_isAsciiWordCharacter isWord

/-- The name of the distance, in capitals or small letters. -/
theorem isWord_distance (name : Text.Spelling "len".toList) :
    name.text.all Text.isAsciiWordCharacter = true :=
  name.all_isAsciiWordCharacter (by decide)

/-! ## White space -/

theorem isPhrase_mark {mark : Char} (isMark : mark ∈ ',' :: marks) : Text.IsPhrase [mark] := by
  refine Text.isPhrase_of_forall (List.cons_ne_nil _ _) fun character member => ?_
  rw [List.mem_singleton.mp member]
  exact Text.forall_mem_of_all_not (by decide) mark isMark

theorem mem_marks_of_mem_operators {mark : Char} (isOperator : mark ∈ operators) :
    mark ∈ marks :=
  List.mem_append_left ['(', ')'] isOperator

/-- A row has no white space at its ends. -/
theorem isPhrase_of_isRow
    {isAllowed : Operand → Prop}
    {count : Nat}
    {text : Text}
    (row : IsRow isAllowed count text) :
    Text.IsPhrase text := by
  have opening := @isPhrase_mark '(' (by decide)
  have closing := @isPhrase_mark ')' (by decide)
  induction row with
  | operand argument allowed => exact argument.isPhrase_text
  | @signed sign gap _ _ _ inductionHypothesis =>
      have isMark := mem_marks_of_mem_operators sign.character_mem_operators
      exact (isPhrase_mark (List.mem_cons_of_mem _ isMark)).append gap inductionHypothesis
  | @enclosed gap _ trail _ _ _ inductionHypothesis =>
      exact opening.append gap (inductionHypothesis.append trail closing)
  | @combined _ isOperator _ gap trail _ _ _ _ _ leftHypothesis rightHypothesis =>
      have isMark := mem_marks_of_mem_operators isOperator
      exact leftHypothesis.append gap
        ((isPhrase_mark (List.mem_cons_of_mem _ isMark)).append trail rightHypothesis)
  | @distance name gap _ trail _ _ _ inductionHypothesis =>
      have word := Text.isPhrase_of_forall (name.text_ne_nil (by decide)) fun character member =>
        Text.isBlank_of_isAsciiWordCharacter
          (List.all_eq_true.mp (isWord_distance name) character member)
      exact word.append [] (opening.append gap (inductionHypothesis.append trail closing))
  | @next _ _ gap trail _ _ _ _ _ firstHypothesis restHypothesis =>
      exact firstHypothesis.append gap
        ((isPhrase_mark List.mem_cons_self).append trail restHypothesis)

/-! ## Brackets -/

theorem depthChange_of_mem_operators
    {mark : Char}
    (isOperator : mark ∈ operators) :
    Token.depthChange mark = 0 := by
  have all : operators.all (fun mark => Token.depthChange mark == 0) = true := by decide
  exact eq_of_beq (List.all_eq_true.mp all mark isOperator)

theorem Operand.depthOf_text (operand : Operand) : Token.depthOf operand.text = 0 := by
  cases operand with
  | literal numeral => exact Token.depthOf_eq_zero numeral.continues_of_mem (by decide)
  | named name =>
      have level := Token.depthOf_of_isAsciiWordCharacter (List.all_eq_true.mp name.continues)
      rw [Operand.text, Token.depthOf, level]
      rfl
  | measured id name =>
      have idLevel := Token.depthOf_of_isAsciiWordCharacter (List.all_eq_true.mp id.continues)
      have nameLevel := Token.depthOf_eq_zero (List.all_eq_true.mp name.alphanumeric) (by decide)
      rw [Operand.text, Token.depthOf, Token.depthOf_append, Token.depthOf,
        Token.depthOf_append, idLevel, nameLevel]
      rfl

/-- White space does not change the depth of what stands behind it. -/
theorem depthOf_blanks_append
    {gap : Text}
    (blank : gap.all Text.isBlank = true)
    (text : Text) :
    Token.depthOf (gap ++ text) = Token.depthOf text := by
  rw [Token.depthOf_append, Token.depthOf_of_blanks blank, Int.zero_add]

/-- What is enclosed with white space is as deep as it is. -/
theorem depthOf_enclosed
    {gap trail : Text}
    (blank : gap.all Text.isBlank = true)
    (trailBlank : trail.all Text.isBlank = true)
    (inner : Text) :
    Token.depthOf ('(' :: (gap ++ (inner ++ (trail ++ [')'])))) = Token.depthOf inner := by
  have opening : Token.depthChange '(' = 1 := rfl
  have closing : Token.depthOf [')'] = -1 := rfl
  rw [Token.depthOf, depthOf_blanks_append blank, Token.depthOf_append,
    depthOf_blanks_append trailBlank, opening, closing]
  omega

/-- A row closes all brackets that it opens. -/
theorem depthOf_of_isRow
    {isAllowed : Operand → Prop}
    {count : Nat}
    {text : Text}
    (row : IsRow isAllowed count text) :
    Token.depthOf text = 0 := by
  induction row with
  | operand argument allowed => exact argument.depthOf_text
  | signed sign blank _ level =>
      rw [Token.depthOf, depthOf_blanks_append blank, level,
        depthChange_of_mem_operators sign.character_mem_operators]
      rfl
  | enclosed blank trailBlank _ level => rw [depthOf_enclosed blank trailBlank, level]
  | combined isOperator blank trailBlank _ _ leftLevel rightLevel =>
      rw [Token.depthOf_append, depthOf_blanks_append blank, Token.depthOf,
        depthOf_blanks_append trailBlank, depthChange_of_mem_operators isOperator, leftLevel,
        rightLevel]
      rfl
  | distance name blank trailBlank _ level =>
      rw [Token.depthOf_append, depthOf_enclosed blank trailBlank, level,
        Token.depthOf_of_isAsciiWordCharacter (List.all_eq_true.mp (isWord_distance name))]
      rfl
  | next blank trailBlank _ _ firstLevel restLevel =>
      rw [Token.depthOf_append, depthOf_blanks_append blank, Token.depthOf,
        depthOf_blanks_append trailBlank, firstLevel, restLevel]
      rfl

end Expression
end Joinery
