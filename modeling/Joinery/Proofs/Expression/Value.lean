import Joinery.Proofs.Binary64.Angle
import Joinery.Proofs.Expression.Cause

/-!
# Values of expressions

The value of an expression is finite and far below the limit. A board with a bounded angle
can be turned by it.
-/

namespace Joinery

open Binary64

namespace Board

/-- A board with a bounded angle can be turned by it. -/
theorem isSome_turn?
    {board : Board Binary64}
    (within : Within degreeBound board.angle) :
    board.turn?.isSome = true := by
  have finite := isFinite_toRadians within
  unfold turn?
  split
  next infinite => simp [infinite, isFinite] at finite
  next => rfl

end Board

/-- The value of plain arithmetic is finite and far below the limit. -/
theorem within_evaluateArithmetic
    {text : Text}
    {value : Binary64}
    (evaluated : evaluateArithmetic text = .ok value) :
    Within (5 * scale) value := by
  obtain ⟨raw, -, rounded⟩ := bind_eq_ok.mp (mapError_eq_ok.mp evaluated)
  unfold Arithmetic.rounded at rounded
  split at rounded
  · exact within_roundThousandths (mapError_eq_ok.mp rounded)
  · cases rounded

/-- The value of an expression is finite and far below the limit. -/
theorem within_evaluate
    {scope : Scope}
    {text : Text}
    {value : Binary64}
    (evaluated : evaluate scope text = .ok value) :
    Within (5 * scale) value := by
  obtain ⟨withoutVariables, -, evaluated⟩ := bind_eq_ok.mp evaluated
  obtain ⟨withoutProperties, -, evaluated⟩ := bind_eq_ok.mp evaluated
  obtain ⟨plain, -, evaluated⟩ := bind_eq_ok.mp evaluated
  exact within_evaluateArithmetic evaluated

end Joinery
