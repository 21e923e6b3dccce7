import Mathlib.Order.MinMax
import Joinery.Proofs.Arithmetic.Tree
import Joinery.Proofs.Binary64.Alike

/-!
# Factors in place of operands

When factors stand in place of the operands of a tree, its row of symbols has their
symbols, its nesting counts theirs, and its value is what the tree has for their values.
Values that differ only by the sign of a zero lead to such values again.
-/

namespace Joinery
namespace Arithmetic

open Binary64 (Alike)

variable {α β : Type}

/-- The symbols that stand for a symbol, when there are factors for operands. -/
def Symbol.graft (factorOf : α → Tree β .factor) : Symbol α → List (Symbol β)
  | .operand argument => (factorOf argument).symbols
  | .sign plusOrMinus => [.sign plusOrMinus]
  | .scaling timesOrOver => [.scaling timesOrOver]
  | .opening => [.opening]
  | .closing => [.closing]

namespace Tree

/-- The tree with factors in place of its operands. -/
def graft (factorOf : α → Tree β .factor) : {level : Level} → Tree α level → Tree β level
  | _, .operand argument => factorOf argument
  | _, .signed sign inner => .signed sign (inner.graft factorOf)
  | _, .enclosed inner => .enclosed (inner.graft factorOf)
  | _, .single factor => .single (factor.graft factorOf)
  | _, .scaled before scaling factor =>
      .scaled (before.graft factorOf) scaling (factor.graft factorOf)
  | _, .lone term => .lone (term.graft factorOf)
  | _, .extended before sign term =>
      .extended (before.graft factorOf) sign (term.graft factorOf)

variable {level : Level}

theorem symbols_graft (factorOf : α → Tree β .factor) (tree : Tree α level) :
    (tree.graft factorOf).symbols = tree.symbols.flatMap (Symbol.graft factorOf) := by
  induction tree with
  | operand argument => simp [graft, symbols, Symbol.graft]
  | signed sign inner inductionHypothesis =>
      simp [graft, symbols, Symbol.graft, inductionHypothesis]
  | enclosed inner inductionHypothesis =>
      simp [graft, symbols, Symbol.graft, inductionHypothesis]
  | single factor inductionHypothesis => exact inductionHypothesis
  | scaled before scaling factor beforeHypothesis factorHypothesis =>
      simp [graft, symbols, Symbol.graft, beforeHypothesis, factorHypothesis]
  | lone term inductionHypothesis => exact inductionHypothesis
  | extended before sign term beforeHypothesis termHypothesis =>
      simp [graft, symbols, Symbol.graft, beforeHypothesis, termHypothesis]

theorem nesting_graft
    (factorOf : α → Tree β .factor)
    (nestingOf : β → Nat)
    (tree : Tree α level) :
    (tree.graft factorOf).nesting nestingOf =
      tree.nesting fun argument => (factorOf argument).nesting nestingOf := by
  induction tree with
  | operand argument => rfl
  | signed sign inner inductionHypothesis => rw [graft, nesting, nesting, inductionHypothesis]
  | enclosed inner inductionHypothesis => rw [graft, nesting, nesting, inductionHypothesis]
  | single factor inductionHypothesis => exact inductionHypothesis
  | scaled before scaling factor beforeHypothesis factorHypothesis =>
      rw [graft, nesting, nesting, beforeHypothesis, factorHypothesis]
  | lone term inductionHypothesis => exact inductionHypothesis
  | extended before sign term beforeHypothesis termHypothesis =>
      rw [graft, nesting, nesting, beforeHypothesis, termHypothesis]

/-- A tree is nested at most as deeply as one whose operands count for more. -/
theorem nesting_mono
    {first second : α → Nat}
    (tree : Tree α level)
    (le : ∀ argument, .operand argument ∈ tree.symbols → first argument ≤ second argument) :
    tree.nesting first ≤ tree.nesting second := by
  induction tree with
  | operand argument => exact le argument (List.mem_singleton_self _)
  | signed sign inner inductionHypothesis =>
      refine Nat.succ_le_succ (inductionHypothesis fun argument member => le argument ?_)
      exact List.mem_cons_of_mem _ member
  | enclosed inner inductionHypothesis =>
      refine Nat.succ_le_succ (inductionHypothesis fun argument member => le argument ?_)
      exact List.mem_cons_of_mem _ (List.mem_append_left _ member)
  | single factor inductionHypothesis => exact inductionHypothesis le
  | scaled before scaling factor beforeHypothesis factorHypothesis =>
      refine max_le_max (beforeHypothesis fun argument member => le argument ?_)
        (factorHypothesis fun argument member => le argument ?_)
      · exact List.mem_append_left _ member
      · exact List.mem_append_right _ (List.mem_cons_of_mem _ member)
  | lone term inductionHypothesis => exact inductionHypothesis le
  | extended before sign term beforeHypothesis termHypothesis =>
      refine max_le_max (beforeHypothesis fun argument member => le argument ?_)
        (termHypothesis fun argument member => le argument ?_)
      · exact List.mem_append_left _ member
      · exact List.mem_append_right _ (List.mem_cons_of_mem _ member)

end Tree

/-! ## Values -/

section Operations

variable {left right other otherRight : Binary64}

theorem Sign.alike_apply (sign : Sign) (alike : Alike left right) :
    Alike (sign.apply left) (sign.apply right) := by
  cases sign with
  | plus => exact alike
  | minus => exact alike.neg

theorem Sign.alike_combine
    (sign : Sign)
    (leftAlike : Alike left right)
    (otherAlike : Alike other otherRight) :
    Alike (sign.combine left other) (sign.combine right otherRight) := by
  cases sign with
  | plus => exact leftAlike.add otherAlike
  | minus => exact leftAlike.sub otherAlike

/-- Zeros are no divisors, whatever their signs. -/
theorem Scaling.alike_combine
    (scaling : Scaling)
    (leftAlike : Alike left right)
    (otherAlike : Alike other otherRight) :
    Option.Rel Alike (scaling.combine left other).toOption
      (scaling.combine right otherRight).toOption := by
  match scaling with
  | .times => exact .some (leftAlike.mul otherAlike)
  | .over =>
      have sameZero := otherAlike.beq_zero_eq
      simp only [Scaling.combine, ← sameZero]
      cases zero : other == 0 with
      | true => exact .none
      | false => exact .some (leftAlike.div otherAlike zero)

end Operations

/-- Two attempts at a value that fail alike have values that are alike. -/
theorem bind_alike
    {first second : Option Binary64}
    {next other : Binary64 → Option Binary64}
    (alike : Option.Rel Alike first second)
    (further : ∀ left right, Alike left right → Option.Rel Alike (next left) (other right)) :
    Option.Rel Alike (first >>= next) (second >>= other) := by
  cases alike with
  | some alike => exact further _ _ alike
  | none => exact .none

/-- Factors with such values as the operands have lead to such a value as the tree has. -/
theorem Tree.alike_value_graft
    {level : Level}
    {factorOf : α → Tree β .factor}
    {valueOf : β → Binary64}
    {values : α → Binary64}
    (tree : Tree α level)
    (alike : ∀ argument, .operand argument ∈ tree.symbols →
      Option.Rel Alike ((factorOf argument).value valueOf) (some (values argument))) :
    Option.Rel Alike ((tree.graft factorOf).value valueOf) (tree.value values) := by
  induction tree with
  | operand argument => exact alike argument (List.mem_singleton_self _)
  | signed sign inner inductionHypothesis =>
      have inside := inductionHypothesis fun argument member =>
        alike argument (List.mem_cons_of_mem _ member)
      rw [graft, value_signed, value_signed, Option.map_eq_bind, Option.map_eq_bind]
      exact bind_alike inside fun left right same => .some (sign.alike_apply same)
  | enclosed inner inductionHypothesis =>
      refine inductionHypothesis fun argument member => alike argument ?_
      exact List.mem_cons_of_mem _ (List.mem_append_left _ member)
  | single factor inductionHypothesis => exact inductionHypothesis alike
  | scaled before scaling factor beforeHypothesis factorHypothesis =>
      have first := beforeHypothesis fun argument member =>
        alike argument (List.mem_append_left _ member)
      have second := factorHypothesis fun argument member =>
        alike argument (List.mem_append_right _ (List.mem_cons_of_mem _ member))
      rw [graft, value_scaled, value_scaled]
      refine bind_alike first fun left right same => ?_
      exact bind_alike second fun _ _ => scaling.alike_combine same
  | lone term inductionHypothesis => exact inductionHypothesis alike
  | extended before sign term beforeHypothesis termHypothesis =>
      have first := beforeHypothesis fun argument member =>
        alike argument (List.mem_append_left _ member)
      have second := termHypothesis fun argument member =>
        alike argument (List.mem_append_right _ (List.mem_cons_of_mem _ member))
      rw [graft, value_extended, value_extended]
      refine bind_alike first fun left right same => ?_
      exact bind_alike second fun _ _ other => .some (sign.alike_combine same other)

end Arithmetic
end Joinery
