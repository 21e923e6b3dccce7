import Joinery.Proofs.Arithmetic.Writing

/-!
# Shapes of written expressions

A written expression is an operand, a sign and an expression, an expression in
parentheses, or two expressions with an operator between them, with white space around
all of these parts. So a property of texts that each of these shapes hands on holds of
every written expression: `IsExpression.induction`.
-/

namespace Joinery

/-- A spaced text with the words of two lists has two spaced parts. -/
theorem Text.IsSpaced.exists_of_append
    {first second : List Text}
    {text : Text}
    (spaced : IsSpaced (first ++ second) text)
    (firstNonempty : first ≠ [])
    (secondNonempty : second ≠ []) :
    ∃ left gap right, text = left ++ (gap ++ right) ∧ gap.all isBlank = true ∧
      IsSpaced first left ∧ IsSpaced second right := by
  induction first generalizing text with
  | nil => exact absurd rfl firstNonempty
  | cons word others inductionHypothesis =>
      rw [List.cons_append] at spaced
      generalize words : others ++ second = following at spaced
      cases spaced with
      | last =>
          exact absurd words (List.append_ne_nil_of_right_ne_nil _ secondNonempty)
      | next word gap blank spaced =>
          subst words
          cases others with
          | nil => exact ⟨word, gap, _, rfl, blank, .last word, spaced⟩
          | cons next further =>
              obtain ⟨left, between, right, rfl, betweenBlank, leftSpaced, rightSpaced⟩ :=
                inductionHypothesis spaced (List.cons_ne_nil _ _)
              refine ⟨word ++ (gap ++ left), between, right, ?_, betweenBlank,
                .next word gap blank leftSpaced, rightSpaced⟩
              simp only [List.append_assoc]

namespace Arithmetic

/-- The characters of signs and operators. -/
def operators : Text := ['+', '-', '*', '/']

theorem Sign.character_mem_operators (sign : Sign) : sign.character ∈ operators := by
  cases sign <;> decide

theorem Scaling.character_mem_operators (scaling : Scaling) :
    scaling.character ∈ operators := by
  cases scaling <;> decide

namespace Tree

variable {α : Type}

theorem symbols_ne_nil {level : Level} (tree : Tree α level) : tree.symbols ≠ [] := by
  induction tree with
  | operand argument => exact List.cons_ne_nil _ _
  | signed sign inner inductionHypothesis => exact List.cons_ne_nil _ _
  | enclosed inner inductionHypothesis => exact List.cons_ne_nil _ _
  | single factor inductionHypothesis => exact inductionHypothesis
  | scaled before scaling factor beforeHypothesis factorHypothesis =>
      exact List.append_ne_nil_of_left_ne_nil beforeHypothesis _
  | lone term inductionHypothesis => exact inductionHypothesis
  | extended before sign term beforeHypothesis termHypothesis =>
      exact List.append_ne_nil_of_left_ne_nil beforeHypothesis _

variable {textOf : α → Text} {level : Level} {text : Text}

/-- A symbol that is a single character stands in front of what the other symbols are
written as. -/
theorem exists_of_isSpaced_cons
    {mark : Char}
    {words : List Text}
    (spaced : Text.IsSpaced ([mark] :: words) text)
    (nonempty : words ≠ []) :
    ∃ gap rest, text = mark :: (gap ++ rest) ∧ gap.all Text.isBlank = true ∧
      Text.IsSpaced words rest := by
  cases spaced with
  | last => exact absurd rfl nonempty
  | next word gap blank spaced => exact ⟨gap, _, rfl, blank, spaced⟩

/-- Two trees with an operator between them are written as their texts around it. -/
theorem exists_of_isSpaced_append
    {first second : Level}
    {left : Tree α first}
    {right : Tree α second}
    {symbol : Symbol α}
    {mark : Char}
    (single : symbol.text textOf = [mark])
    (spaced : Text.IsSpaced
      ((left.symbols ++ symbol :: right.symbols).map (Symbol.text textOf)) text) :
    ∃ before gap trail after, text = before ++ (gap ++ mark :: (trail ++ after)) ∧
      gap.all Text.isBlank = true ∧ trail.all Text.isBlank = true ∧
      left.IsWritten textOf before ∧ right.IsWritten textOf after := by
  rw [List.map_append, List.map_cons, single] at spaced
  obtain ⟨before, gap, rest, rfl, gapBlank, leftWritten, restSpaced⟩ :=
    spaced.exists_of_append (by simpa using left.symbols_ne_nil) (List.cons_ne_nil _ _)
  obtain ⟨trail, after, rfl, trailBlank, rightWritten⟩ :=
    exists_of_isSpaced_cons restSpaced (by simpa using right.symbols_ne_nil)
  exact ⟨before, gap, trail, after, rfl, gapBlank, trailBlank, leftWritten, rightWritten⟩

end Tree

/-- A text that a tree is written as. -/
def IsExpression {α : Type} (textOf : α → Text) (text : Text) : Prop :=
  ∃ (level : Level) (tree : Tree α level), tree.IsWritten textOf text

/-- What all shapes of expressions hand on holds of all expressions. -/
@[elab_as_elim]
theorem IsExpression.induction
    {α : Type}
    {textOf : α → Text}
    {motive : Text → Prop}
    {text : Text}
    (isExpression : IsExpression textOf text)
    (operand : ∀ argument, motive (textOf argument))
    (signed : ∀ (sign : Sign) (gap inner : Text), gap.all Text.isBlank = true →
      IsExpression textOf inner → motive inner → motive (sign.character :: (gap ++ inner)))
    (enclosed : ∀ gap inner trail : Text, gap.all Text.isBlank = true →
      trail.all Text.isBlank = true → IsExpression textOf inner → motive inner →
      motive ('(' :: (gap ++ (inner ++ (trail ++ [')'])))))
    (combined : ∀ mark ∈ operators, ∀ left gap trail right : Text,
      gap.all Text.isBlank = true → trail.all Text.isBlank = true →
      IsExpression textOf left → IsExpression textOf right → motive left → motive right →
      motive (left ++ (gap ++ mark :: (trail ++ right)))) :
    motive text := by
  obtain ⟨level, tree, written⟩ := isExpression
  induction tree generalizing text with
  | operand argument =>
      cases written with
      | last => exact operand argument
      | next word gap blank spaced => cases spaced
  | signed sign inner inductionHypothesis =>
      obtain ⟨gap, rest, rfl, blank, innerWritten⟩ :=
        Tree.exists_of_isSpaced_cons written (by simpa using inner.symbols_ne_nil)
      exact signed sign gap rest blank ⟨_, inner, innerWritten⟩
        (inductionHypothesis innerWritten)
  | enclosed inner inductionHypothesis =>
      obtain ⟨gap, rest, rfl, blank, restSpaced⟩ :=
        Tree.exists_of_isSpaced_cons written (by simp)
      rw [List.map_append] at restSpaced
      obtain ⟨body, trail, closing, rfl, trailBlank, innerWritten, closingSpaced⟩ :=
        restSpaced.exists_of_append (by simpa using inner.symbols_ne_nil) (by simp)
      obtain rfl : closing = [')'] := by
        cases closingSpaced with
        | last => rfl
        | next word gap blank spaced => cases spaced
      exact enclosed gap body trail blank trailBlank ⟨_, inner, innerWritten⟩
        (inductionHypothesis innerWritten)
  | single factor inductionHypothesis => exact inductionHypothesis written
  | scaled before scaling factor beforeHypothesis factorHypothesis =>
      obtain ⟨left, gap, trail, right, rfl, gapBlank, trailBlank, leftWritten, rightWritten⟩ :=
        Tree.exists_of_isSpaced_append rfl written
      exact combined _ scaling.character_mem_operators left gap trail right gapBlank trailBlank
        ⟨_, before, leftWritten⟩ ⟨_, factor, rightWritten⟩ (beforeHypothesis leftWritten)
        (factorHypothesis rightWritten)
  | lone term inductionHypothesis => exact inductionHypothesis written
  | extended before sign term beforeHypothesis termHypothesis =>
      obtain ⟨left, gap, trail, right, rfl, gapBlank, trailBlank, leftWritten, rightWritten⟩ :=
        Tree.exists_of_isSpaced_append rfl written
      exact combined _ sign.character_mem_operators left gap trail right gapBlank trailBlank
        ⟨_, before, leftWritten⟩ ⟨_, term, rightWritten⟩ (beforeHypothesis leftWritten)
        (termHypothesis rightWritten)

end Arithmetic
end Joinery
