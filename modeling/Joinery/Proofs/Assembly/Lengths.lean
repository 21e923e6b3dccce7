import Joinery.Proofs.Assembly.WellFormed
import Joinery.Proofs.Issue

/-!
# Lengths of assembled boards

Every length of a board is the value of an expression or the length of a segment, so it was
rounded to thousandths.
-/

namespace Joinery

open Binary64

theorem isRounded_evaluateArithmetic
    {text : Text}
    {value : Binary64}
    (evaluated : evaluateArithmetic text = .ok value) :
    IsRounded value := by
  obtain ⟨raw, -, rounded⟩ := bind_eq_ok.mp (mapError_eq_ok.mp evaluated)
  unfold Arithmetic.rounded at rounded
  split at rounded
  · exact ⟨raw, mapError_eq_ok.mp rounded⟩
  · cases rounded

theorem isRounded_evaluate
    {scope : Scope}
    {text : Text}
    {value : Binary64}
    (evaluated : evaluate scope text = .ok value) :
    IsRounded value := by
  obtain ⟨withoutVariables, -, evaluated⟩ := bind_eq_ok.mp evaluated
  obtain ⟨withoutProperties, -, evaluated⟩ := bind_eq_ok.mp evaluated
  obtain ⟨plain, -, evaluated⟩ := bind_eq_ok.mp evaluated
  exact isRounded_evaluateArithmetic evaluated

namespace Options

variable {scope : Scope}

theorem isRounded_readLengths
    {words : List CutWord}
    {lengths : List (Option Side × Binary64)}
    (found : readLengths scope words = .ok lengths) :
    ∀ entry ∈ lengths, IsRounded entry.2 := by
  induction words generalizing lengths with
  | nil =>
      cases found
      simp
  | cons word rest inductionHypothesis =>
      cases word with
      | unrelated => exact inductionHypothesis found
      | cut side length =>
          obtain ⟨value, evaluated, found⟩ := bind_eq_ok.mp found
          obtain ⟨others, othersFound, same⟩ := bind_eq_ok.mp found
          cases same
          exact List.forall_mem_cons.mpr
            ⟨isRounded_evaluate evaluated, inductionHypothesis othersFound⟩

/-- A length of combined cuts was there before, or it is one of the lengths. -/
theorem get_combineCuts
    {cuts combined : Cuts Binary64}
    {lengths : List (Option Side × Binary64)}
    {side : Side}
    {length : Binary64}
    (found : combineCuts cuts lengths = .ok combined)
    (cut : combined.get side = some length) :
    cuts.get side = some length ∨ (some side, length) ∈ lengths := by
  induction lengths generalizing cuts with
  | nil =>
      cases found
      exact Or.inl cut
  | cons entry rest inductionHypothesis =>
      obtain ⟨other, value⟩ := entry
      cases other with
      | none => cases found
      | some other =>
          rcases inductionHypothesis found with before | later
          · rw [Cuts.get_set] at before
            split at before
            next same =>
              cases before
              exact Or.inr (by rw [same]; exact List.mem_cons_self)
            next => exact Or.inl before
          · exact Or.inr (List.mem_cons_of_mem _ later)

theorem isRounded_takeCuts
    {options rest : Text}
    {cuts : Cuts Binary64}
    {side : Side}
    {length : Binary64}
    (taken : takeCuts scope options = .ok (some cuts, rest))
    (cut : cuts.get side = some length) :
    IsRounded length := by
  unfold takeCuts at taken
  split at taken
  · cases taken
  · obtain ⟨_, read, same⟩ := bind_eq_ok.mp taken
    cases same
    obtain ⟨lengths, found, combined⟩ := bind_eq_ok.mp read
    split at combined
    · cases combined
    · rcases get_combineCuts combined cut with before | member
      · cases side <;> cases before
      · exact isRounded_readLengths found _ member

end Options

namespace Draft

variable {scope : Scope} {heading : Heading} {draft : Draft}

/-- The dimensions of a draft are values of expressions. -/
theorem isRounded_ofHeading (drafted : ofHeading scope heading = .ok draft) :
    IsRounded draft.width ∧ IsRounded draft.height ∧ IsRounded draft.depth := by
  simp only [ofHeading] at drafted
  split at drafted
  · obtain ⟨width, widthFound, drafted⟩ := bind_eq_ok.mp drafted
    obtain ⟨height, heightFound, drafted⟩ := bind_eq_ok.mp drafted
    obtain ⟨depth, depthFound, drafted⟩ := bind_eq_ok.mp drafted
    obtain ⟨position, -, same⟩ := bind_eq_ok.mp drafted
    cases same
    exact ⟨isRounded_evaluate widthFound, isRounded_evaluate heightFound,
      isRounded_evaluate depthFound⟩
  · cases drafted

theorem isRounded_place
    {placement : Placement}
    {options : Text}
    (rounded : IsRounded draft.width)
    (placed : draft.place scope = .ok (placement, options)) :
    IsRounded placement.width := by
  unfold place at placed
  split at placed
  · cases placed
    exact rounded
  · cases placed
    exact rounded
  · obtain ⟨⟨level, rest⟩, -, placed⟩ := bind_eq_ok.mp placed
    dsimp only at placed
    split at placed
    next length =>
      cases placed
      exact ⟨_, length⟩
    next => cases placed

/-- The lengths of a board were rounded to thousandths. -/
theorem everyLength_board
    {id name : Text}
    {index : Nat}
    {board : Board Binary64}
    (drafted : ofHeading scope heading = .ok draft)
    (built : draft.board scope id name index = .ok board) :
    board.EveryLength IsRounded := by
  obtain ⟨placement, options, cuts, behindCuts, view, behindView, placed, cut, viewed, rfl⟩ :=
    board_eq_ok built
  obtain ⟨width, height, depth⟩ := isRounded_ofHeading drafted
  refine ⟨isRounded_place width placed, height, depth, ?_⟩
  rintro cuts side length rfl found
  exact Options.isRounded_takeCuts cut found

end Draft
end Joinery
