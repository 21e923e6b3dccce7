import Joinery.Proofs.Expression.Formula
import Joinery.Proofs.Keyword.Passage

/-!
# Expressions between keywords

An expression can stand in a row of phrases. A search for a keyword passes it: the names
in it are variables or stand inside braces, and the words outside of these start with
digits. It closes all brackets that it opens.
-/

namespace Joinery
namespace Expression

open Arithmetic

/-- A character that can stand in an expression. -/
def isInside (character : Char) : Bool :=
  Text.isBlank character || Text.isAsciiWordCharacter character ||
    Numeral.continues character || marks.contains character ||
    ['$', '{', '}'].contains character

namespace Operand

theorem isInside_of_mem
    {operand : Operand}
    {character : Char}
    (member : character ∈ operand.text) :
    isInside character = true := by
  cases operand with
  | literal numeral => simp [isInside, numeral.continues_of_mem character member]
  | named name =>
      rcases List.mem_cons.mp member with rfl | member
      · decide
      · simp [isInside, List.all_eq_true.mp name.continues character member]
  | measured id name =>
      rcases mem_text_measured member with known | isWord
      · have all : ['{', '.', '}'].all isInside = true := by decide
        exact List.all_eq_true.mp all character known
      · simp [isInside, isWord]

end Operand

/-! ## Keywords -/

section Keywords

variable {keyword : Text}

open Keyword

/-- White space is passed, whatever follows. -/
theorem findFrom_blanks
    {gap : Text}
    (blank : gap.all Text.isBlank = true)
    (position : Nat)
    (depth : Int)
    (rest : Text) :
    findFrom position depth (gap ++ rest) keyword =
      findFrom (position + gap.length) depth rest keyword := by
  induction gap generalizing position with
  | nil => rfl
  | cons first others inductionHypothesis =>
      rw [List.all_cons, Bool.and_eq_true] at blank
      have notVariable : first ≠ '$' := by
        rintro rfl
        exact absurd blank.1 (by decide)
      rw [List.cons_append, findFrom_cons (Token.isAsciiWordCharacter_of_isBlank blank.1)
        notVariable, Token.depthChange_of_isBlank blank.1, Int.add_zero,
        inductionHypothesis blank.2, List.length_cons]
      congr 1
      omega

theorem startsWith_blanks
    {gap : Text}
    (blank : gap.all Text.isBlank = true) :
    Text.startsWith Text.isAsciiWordCharacter gap = false :=
  Text.startsWith_of_forall fun character member =>
    Token.isAsciiWordCharacter_of_isBlank (List.all_eq_true.mp blank character member)

/-- A word that starts with a digit is no keyword. -/
theorem lower_ne_of_isDigit
    (isKeyword : IsKeyword keyword)
    {first : Char}
    {others : Text}
    (isDigit : Text.isDigit first = true)
    (isWord : (first :: others).all Text.isAsciiWordCharacter = true) :
    Text.lower (first :: others) ≠ Text.lower keyword := by
  intro same
  rw [isKeyword.small, Text.lower_of_isAsciiWordCharacter isWord, List.map_cons,
    Text.toLower_of_isDigit isDigit] at same
  have place := Token.toNat_of_isAsciiWordCharacter
    (List.all_eq_true.mp isWord first List.mem_cons_self)
  have range := Text.toNat_of_isDigit isDigit
  have starts := isKeyword.starts
  have zero : '0'.toNat = 48 := rfl
  have nine : '9'.toNat = 57 := rfl
  have ascii : first.isDigit = true := Char.isDigit_iff_toNat.mpr (by omega)
  rw [← same, Text.startsWith_cons, ascii] at starts
  cases starts

/-- A numeral is passed: its words start with digits. -/
theorem passes_numeral
    (isKeyword : IsKeyword keyword)
    {text : Text}
    (digits : ∀ character ∈ text, Numeral.continues character = true) :
    Passes keyword text := by
  intro position depth rest nonnegative stops
  -- The text is a row of words and of points and digits of other scripts.
  induction size : text.length using Nat.strongRecOn generalizing text position with
  | ind size inductionHypothesis =>
      obtain ⟨word, behind, rfl, isWord, ends⟩ :=
        Text.exists_append_of_all Text.isAsciiWordCharacter text
      rw [List.length_append] at size
      rw [List.forall_mem_append] at digits
      cases word with
      | nil =>
          cases behind with
          | nil =>
              rw [← size]
              rfl
          | cons first others =>
              obtain ⟨firstDigit, othersDigits⟩ := List.forall_mem_cons.mp digits.2
              rw [List.length_nil, List.length_cons] at size
              have notVariable : first ≠ '$' := by
                rintro rfl
                exact absurd firstDigit (by decide)
              rw [List.nil_append, List.cons_append, findFrom_cons ends notVariable,
                Token.depthChange_eq_zero firstDigit (by decide), Int.add_zero,
                inductionHypothesis others.length (by omega) othersDigits _ rfl]
              congr 1
              omega
      | cons first others =>
          have isDigit : Text.isDigit first = true := by
            have continues := digits.1 first List.mem_cons_self
            have notPoint : (first == '.') = false := by
              rw [beq_eq_false_iff_ne]
              rintro rfl
              exact absurd (List.all_eq_true.mp isWord _ List.mem_cons_self) (by decide)
            rwa [Numeral.continues, notPoint, Bool.or_false] at continues
          rw [List.length_cons] at size
          rw [List.append_assoc, findFrom_word_append (List.cons_ne_nil first others) isWord
            (Text.startsWith_append_eq_false ends stops),
            if_neg fun same => lower_ne_of_isDigit isKeyword isDigit isWord same.2,
            inductionHypothesis behind.length (by omega) digits.2 _ rfl, List.length_cons]
          congr 1
          omega

/-- Operands are passed: the words outside braces in them start with digits. -/
theorem passes_operand (isKeyword : IsKeyword keyword) (operand : Operand) :
    Passes keyword operand.text := by
  intro position depth rest nonnegative stops
  cases operand with
  | literal numeral =>
      exact passes_numeral isKeyword numeral.continues_of_mem position depth rest nonnegative stops
  | named name =>
      exact findFrom_variable_append name.text_ne_nil name.continues stops
  | measured id name =>
      have inside : ¬depth + 1 = 0 := by omega
      have opening : Token.depthChange '{' = 1 := rfl
      have closing : Token.depthChange '}' = -1 := rfl
      have point : Token.depthChange '.' = 0 := rfl
      simp only [Operand.text, List.cons_append, List.append_assoc, List.nil_append]
      rw [findFrom_cons (by decide) (by decide), opening,
        findFrom_word_append id.text_ne_nil id.continues (by rw [Text.startsWith_cons]; decide),
        if_neg fun same => inside same.1, findFrom_cons (by decide) (by decide), point,
        findFrom_word_append name.nonempty name.isWord (by rw [Text.startsWith_cons]; decide),
        if_neg fun same => by omega, findFrom_cons (by decide) (by decide), closing]
      simp only [List.length_cons, List.length_append, List.length_nil]
      congr 1
      · omega
      · omega

theorem findFrom_mark
    {mark : Char}
    (isMark : mark ∈ marks)
    (position : Nat)
    (depth : Int)
    (rest : Text) :
    findFrom position depth (mark :: rest) keyword =
      findFrom (position + 1) (depth + Token.depthChange mark) rest keyword := by
  have plain : marks.all (!Text.isAsciiWordCharacter ·) = true := by decide
  refine findFrom_cons (Text.forall_mem_of_all_not plain mark isMark) ?_ rest
  rintro rfl
  exact absurd isMark (by decide)

/-- A search for a keyword passes an expression. -/
theorem passes_of_isExpression
    (isKeyword : IsKeyword keyword)
    {text : Text}
    (isExpression : IsExpression Operand.text text) :
    Passes keyword text := by
  have wordless (mark : Char) (isMark : mark ∈ marks) (rest : Text) :
      Text.startsWith Text.isAsciiWordCharacter (mark :: rest) = false := by
    have plain : marks.all (!Text.isAsciiWordCharacter ·) = true := by decide
    exact Text.forall_mem_of_all_not plain mark isMark
  refine IsExpression.induction isExpression ?operand ?signed ?enclosed ?combined
  case operand => exact passes_operand isKeyword
  case signed =>
    intro sign gap inner blank _ innerPasses position depth rest nonnegative stops
    have isOperator := sign.character_mem_operators
    rw [List.cons_append, List.append_assoc, findFrom_mark (mem_marks_of_mem_operators isOperator),
      depthChange_of_mem_operators isOperator, Int.add_zero, findFrom_blanks blank,
      innerPasses _ _ _ nonnegative stops]
    simp only [List.length_cons, List.length_append]
    congr 1
    omega
  case enclosed =>
    intro gap inner trail blank trailBlank _ innerPasses position depth rest nonnegative stops
    have opening : Token.depthChange '(' = 1 := rfl
    have closing : Token.depthChange ')' = -1 := rfl
    simp only [List.cons_append, List.append_assoc, List.nil_append]
    rw [findFrom_mark (by decide), opening, findFrom_blanks blank,
      innerPasses _ _ _ (by omega) (Text.startsWith_append_eq_false
        (startsWith_blanks trailBlank) (wordless ')' (by decide) rest)),
      findFrom_blanks trailBlank, findFrom_mark (by decide), closing]
    simp only [List.length_cons, List.length_append, List.length_nil]
    congr 1
    · omega
    · omega
  case combined =>
    intro mark isOperator left gap trail right blank trailBlank _ _ leftPasses rightPasses
      position depth rest nonnegative stops
    have isMark := mem_marks_of_mem_operators isOperator
    simp only [List.cons_append, List.append_assoc]
    rw [leftPasses _ _ _ nonnegative (Text.startsWith_append_eq_false (startsWith_blanks blank)
        (wordless mark isMark _)), findFrom_blanks blank, findFrom_mark isMark,
      depthChange_of_mem_operators isOperator, Int.add_zero, findFrom_blanks trailBlank,
      rightPasses _ _ _ nonnegative stops]
    simp only [List.length_cons, List.length_append]
    congr 1
    omega

end Keywords

/-! ## Characters -/

section Characters

variable {text : Text}

theorem isInside_of_isExpression
    (isExpression : IsExpression Operand.text text) :
    ∀ character ∈ text, isInside character = true := by
  obtain ⟨level, tree, written⟩ := isExpression
  refine written.forall_mem (fun character blank => by simp [isInside, blank]) ?_
  intro word member character inside
  obtain ⟨symbol, -, rfl⟩ := List.mem_map.mp member
  cases kind : symbol.isOperand with
  | true =>
      cases symbol with
      | operand argument => exact argument.isInside_of_mem inside
      | sign plusOrMinus => cases kind
      | scaling timesOrOver => cases kind
      | opening => cases kind
      | closing => cases kind
  | false =>
      obtain ⟨mark, text, known⟩ := Symbol.exists_character kind Operand.text fun _ => 0
      rw [text, List.mem_singleton] at inside
      rw [inside]
      simp [isInside, mem_marks known]

/-- An expression does not have a character that cannot stand in one. -/
theorem not_mem_of_isExpression
    (isExpression : IsExpression Operand.text text)
    {character : Char}
    (outside : isInside character = false) :
    character ∉ text := by
  intro member
  rw [isInside_of_isExpression isExpression character member] at outside
  cases outside

end Characters
end Expression
end Joinery
