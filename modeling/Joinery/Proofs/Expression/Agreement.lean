import Mathlib.Data.List.Infix
import Joinery.Expression
import Joinery.Proofs.Text.Piece

/-!
# Scopes that agree

The value of an expression depends on no other variables than those whose names stand
behind a dollar sign in it.
-/

namespace Joinery

/-- Two scopes with the same boards and the same values of the variables in a text. -/
structure Scope.AgreeOn (left right : Scope) (text : Text) : Prop where
  boards : left.board? = right.board?
  numbers : ∀ name, '$' :: name <:+: text → left.number? name = right.number? name

/-- Scopes that agree on a text agree on its parts. -/
theorem Scope.AgreeOn.part
    {left right : Scope}
    {text part : Text}
    (agree : left.AgreeOn right text)
    (inside : part <:+: text) :
    left.AgreeOn right part :=
  ⟨agree.boards, fun name named => agree.numbers name (named.trans inside)⟩

/-- Replacing depends only on what is written for the pieces of the text. -/
theorem Text.replace_congr
    {α ε : Type}
    {write other : α → Except ε Text}
    {pieces : List (Piece α)}
    (same : ∀ value text, .found value text ∈ pieces → write value = other value) :
    replace write pieces = replace other pieces := by
  induction pieces with
  | nil => rfl
  | cons piece rest inductionHypothesis =>
      have later := inductionHypothesis fun value text member =>
        same value text (List.mem_cons_of_mem piece member)
      cases piece with
      | other character => rw [replace, replace, later]
      | found value text => rw [replace, replace, later, same value text List.mem_cons_self]

namespace Expression

theorem identifier_isPrefix (text : Text) : identifier text <+: text := by
  unfold identifier
  split
  · split
    · exact List.takeWhile_prefix _
    · exact List.nil_prefix
  · exact List.nil_prefix

/-- The name of a variable stands behind a dollar sign. -/
theorem infix_of_mem_pieces
    {text name piece : Text}
    (member : .found name piece ∈ Text.pieces readVariable text) :
    '$' :: name <:+: text := by
  obtain ⟨character, rest, count, behind, found, -⟩ := Text.exists_read_of_mem_pieces member
  obtain ⟨⟨rfl, -⟩, same⟩ := Option.ite_none_right_eq_some.mp found
  cases same
  exact (List.cons_prefix_cons.mpr ⟨rfl, identifier_isPrefix rest⟩).isInfix.trans behind.isInfix

end Expression

/-- An expression has the same value in scopes that agree on it. -/
theorem evaluate_eq_of_agreeOn
    {left right : Scope}
    {text : Text}
    (agree : left.AgreeOn right text) :
    evaluate left text = evaluate right text := by
  have named : Expression.withVariables left text = Expression.withVariables right text := by
    refine Text.replace_congr fun name piece member => ?_
    rw [Expression.writeVariable, Expression.writeVariable,
      agree.numbers name (Expression.infix_of_mem_pieces member)]
  have measured (plain : Text) :
      Expression.withProperties left plain = Expression.withProperties right plain := by
    refine Text.replace_congr fun reference piece _ => ?_
    rw [Expression.writeProperty, Expression.writeProperty, agree.boards]
  simp only [evaluate, named, measured]

end Joinery
