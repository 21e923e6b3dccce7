import Mathlib.Data.List.Basic
import Joinery.Command

/-!
# Order of commands

Commands stand in the order of their lines, and no two of them start on the same line.
-/

namespace Joinery
namespace Command

/-- Commands start at the first of some lines or below it. -/
theorem le_line_of_mem_gather
    {number : Nat}
    {isOpen : Bool}
    {rows : List Text}
    {command : Command}
    (member : command ∈ (gather number isOpen rows).2) :
    number ≤ command.line := by
  induction rows generalizing number isOpen with
  | nil => cases member
  | cons row rest inductionHypothesis =>
      have below {isOpen : Bool} (later : command ∈ (gather (number + 1) isOpen rest).2) :
          number ≤ command.line :=
        Nat.le_of_succ_le (inductionHypothesis later)
      unfold gather at member
      dsimp only at member
      split at member
      · exact below member
      · split at member
        · exact below member
        · rcases List.mem_cons.mp member with rfl | later
          · exact Nat.le_refl _
          · exact below later

theorem pairwise_line_gather (number : Nat) (isOpen : Bool) (rows : List Text) :
    (gather number isOpen rows).2.Pairwise (·.line < ·.line) := by
  induction rows generalizing number isOpen with
  | nil => exact List.Pairwise.nil
  | cons row rest inductionHypothesis =>
      unfold gather
      dsimp only
      split
      · exact inductionHypothesis _ _
      · split
        · exact inductionHypothesis _ _
        · refine List.pairwise_cons.mpr ⟨?_, inductionHypothesis _ _⟩
          intro command later
          exact le_line_of_mem_gather later

/-- Every command starts below the ones before it. -/
theorem pairwise_line_commands (text : Text) :
    (commands text).Pairwise (·.line < ·.line) :=
  pairwise_line_gather 1 false (lines text)

end Command
end Joinery
