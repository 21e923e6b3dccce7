import Joinery.Proofs.Assembly.Lengths

/-!
# Finite boards

Every number of a board that is assembled is finite: the values of expressions and the
length of a segment because they were rounded to thousandths, and the angle of a segment
because it is bounded.
-/

namespace Joinery

open Binary64

section Numbers

variable {α : Type}

/-- The numbers of a segment. -/
def Segment.numbers (segment : Segment α) : List α :=
  [segment.x1, segment.y1, segment.x2, segment.y2] ++ segment.level.toList

/-- The lengths of cuts. -/
def Cuts.numbers (cuts : Cuts α) : List α := Side.all.filterMap cuts.get

/-- All numbers of a board that are set. -/
def Board.numbers (board : Board α) : List α :=
  [board.width, board.height, board.depth, board.angle] ++
    (board.x.toList ++ board.y.toList ++ board.z.toList) ++
    board.segment.toList.flatMap Segment.numbers ++ board.cuts.toList.flatMap Cuts.numbers

end Numbers

/-- The value of an expression is finite. -/
theorem isFinite_evaluate
    {scope : Scope}
    {text : Text}
    {value : Binary64}
    (evaluated : evaluate scope text = .ok value) :
    value.isFinite = true :=
  (within_evaluate evaluated).isFinite

namespace Options

variable {scope : Scope}

/-- The numbers of a position. -/
def Position.numbers : Position → List Binary64
  | .unset => []
  | .point x y z => [x, y, z]
  | .segment x1 y1 x2 y2 => [x1, y1, x2, y2]

theorem isFinite_readPoint
    {text : Text}
    {position : Position}
    (found : readPoint scope text = .ok position) :
    ∀ value ∈ position.numbers, value.isFinite = true := by
  unfold readPoint at found
  split at found
  · obtain ⟨x, xFound, found⟩ := bind_eq_ok.mp found
    obtain ⟨y, yFound, found⟩ := bind_eq_ok.mp found
    obtain ⟨z, zFound, found⟩ := bind_eq_ok.mp found
    cases found
    simp [Position.numbers, isFinite_evaluate xFound, isFinite_evaluate yFound,
      isFinite_evaluate zFound]
  · cases found

theorem isFinite_readSegment
    {text rest : Text}
    {position : Position}
    (found : readSegment scope text = .ok (position, rest)) :
    ∀ value ∈ position.numbers, value.isFinite = true := by
  unfold readSegment at found
  split at found
  · cases found
  split at found
  · split at found
    split at found
    · obtain ⟨x1, x1Found, found⟩ := bind_eq_ok.mp found
      obtain ⟨y1, y1Found, found⟩ := bind_eq_ok.mp found
      obtain ⟨x2, x2Found, found⟩ := bind_eq_ok.mp found
      obtain ⟨y2, y2Found, found⟩ := bind_eq_ok.mp found
      cases found
      simp [Position.numbers, isFinite_evaluate x1Found, isFinite_evaluate y1Found,
        isFinite_evaluate x2Found, isFinite_evaluate y2Found]
    · cases found
  · cases found

/-- The numbers of a position are values of expressions. -/
theorem isFinite_readPosition
    {options rest : Text}
    {position : Position}
    (found : readPosition scope options = .ok (position, rest)) :
    ∀ value ∈ position.numbers, value.isFinite = true := by
  unfold readPosition at found
  split at found
  · exact isFinite_readSegment found
  · obtain ⟨position, point, same⟩ := bind_eq_ok.mp found
    cases same
    exact isFinite_readPoint point
  · cases found
    simp [Position.numbers]

theorem isFinite_readLevel
    {options rest : Text}
    {level : Option Binary64}
    (found : readLevel scope options = .ok (level, rest)) :
    ∀ value ∈ level, value.isFinite = true := by
  unfold readLevel at found
  split at found
  · obtain ⟨value, evaluated, same⟩ := bind_eq_ok.mp found
    cases same
    rintro _ ⟨⟩
    exact isFinite_evaluate evaluated
  · cases found
    simp

end Options

namespace Draft

variable {scope : Scope} {heading : Heading} {draft : Draft}

/-- The coordinates of a placement and the numbers of its segment are finite. -/
theorem isFinite_place
    {placement : Placement}
    {options : Text}
    (drafted : ofHeading scope heading = .ok draft)
    (placed : draft.place scope = .ok (placement, options)) :
    (∀ value ∈ placement.x.toList ++ placement.y.toList ++ placement.z.toList,
        value.isFinite = true) ∧
      ∀ value ∈ placement.segment.toList.flatMap Segment.numbers, value.isFinite = true := by
  have finite := Options.isFinite_readPosition (readPosition_of_ofHeading drafted)
  unfold place at placed
  cases position : draft.position with
  | unset =>
      rw [position] at placed
      cases placed
      simp
  | point x y z =>
      rw [position] at placed finite
      cases placed
      simpa [Options.Position.numbers] using finite
  | segment x1 y1 x2 y2 =>
      rw [position] at placed finite
      obtain ⟨⟨level, rest⟩, leveled, placed⟩ := bind_eq_ok.mp placed
      have levelFinite := Options.isFinite_readLevel leveled
      dsimp only at placed
      split at placed
      · cases placed
        have height : (level.getD 0).isFinite = true := by
          cases level with
          | none => exact within_zero.isFinite
          | some value => exact levelFinite value rfl
        simp only [Options.Position.numbers, List.forall_mem_cons] at finite
        obtain ⟨x1Finite, y1Finite, x2Finite, y2Finite, -⟩ := finite
        refine ⟨by simp [x1Finite, y1Finite, height], ?_⟩
        simpa [Segment.numbers, x1Finite, y1Finite, x2Finite, y2Finite] using levelFinite
      · cases placed

/-- All numbers of a board are finite. -/
theorem isFinite_board
    {line : Text}
    {id : Text}
    {index : Nat}
    {board : Board Binary64}
    (headed : Heading.ofLine? line = some heading)
    (drafted : ofHeading scope heading = .ok draft)
    (built : draft.board scope id heading.name index = .ok board) :
    ∀ value ∈ board.numbers, value.isFinite = true := by
  have lengths := everyLength_board drafted built
  have angle := (wellFormed_board headed drafted built).bounded.isFinite
  obtain ⟨placement, options, _, _, _, _, placed, -, -, rfl⟩ := board_eq_ok built
  obtain ⟨coordinates, segment⟩ := isFinite_place drafted placed
  simp only [Board.numbers, List.forall_mem_append]
  refine ⟨⟨⟨?_, ?_⟩, segment⟩, ?_⟩
  · simp [lengths.width.within.isFinite, lengths.height.within.isFinite,
      lengths.depth.within.isFinite, angle]
  · simpa only [List.forall_mem_append] using coordinates
  · intro value member
    obtain ⟨cuts, isCut, inside⟩ := List.mem_flatMap.mp member
    obtain ⟨side, -, length⟩ := List.mem_filterMap.mp inside
    exact (lengths.cuts cuts side value (Option.mem_toList.mp isCut) length).within.isFinite

end Draft
end Joinery
