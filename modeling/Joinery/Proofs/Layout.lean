import Mathlib.Data.List.Chain
import Joinery.Proofs.Extent

/-!
# Layouts

Outlines that stand side by side. An outline with positive lengths starts at its offset and
ends where the next one has its offset, up to the space between them. So an outline is apart
from all those behind it, whichever of its corners is the rightmost. Numbers are exact here.
-/

namespace Joinery

/-- The front face of a board has positive lengths: its width, its height, and the lengths of
the cuts that there are. -/
structure Board.HasPositiveFront (board : Board ℚ) : Prop where
  width : 0 < board.width
  height : 0 < board.height
  cuts : ∀ cuts side length, board.cuts = some cuts → cuts.get side = some length → 0 < length

theorem Board.HasPositiveFront.edge
    {board : Board ℚ}
    (positive : board.HasPositiveFront)
    (side : Side) :
    0 < board.edge side := by
  unfold Board.edge
  cases cut : board.cuts.bind (·.get side) with
  | some length =>
      obtain ⟨cuts, known, found⟩ := Option.bind_eq_some_iff.mp cut
      exact positive.cuts cuts side length known found
  | none =>
      cases side with
      | left => exact positive.height
      | right => exact positive.height
      | top => exact positive.width
      | bottom => exact positive.width

namespace Outline

/-- First coordinates of the corners of an outline. -/
def breadth (outline : List (Point ℚ)) : Set ℚ :=
  {number | number ∈ outline.map (·.x)}

/-- From the end of an outline to the start of another one there is a space. -/
def HasSpaceBefore (spacing : ℚ) (first second : List (Point ℚ)) : Prop :=
  ∃ stop start, IsGreatest (breadth first) stop ∧ IsLeast (breadth second) start ∧
    start - stop = spacing

/-! ## Single outlines -/

theorem breadth_shift (offset : ℚ) (outline : List (Point ℚ)) :
    breadth (shift offset outline) = (· + offset) '' breadth outline := by
  ext number
  constructor
  · intro member
    obtain ⟨_, moved, rfl⟩ := List.mem_map.mp member
    obtain ⟨corner, isCorner, rfl⟩ := List.mem_map.mp moved
    exact ⟨corner.x, List.mem_map_of_mem isCorner, rfl⟩
  · rintro ⟨_, member, rfl⟩
    obtain ⟨corner, isCorner, rfl⟩ := List.mem_map.mp member
    exact List.mem_map.mpr ⟨_, List.mem_map_of_mem isCorner, rfl⟩

section Shifted

variable {board : Board ℚ} (positive : board.HasPositiveFront)
include positive

/-- An outline with positive lengths starts at the first axis. -/
theorem isLeast_outline : IsLeast (breadth board.outline) 0 := by
  refine ⟨List.mem_cons_self, fun number member => ?_⟩
  have bottom := positive.edge .bottom
  have top := positive.edge .top
  simp only [breadth, Board.outline, List.map_cons, List.map_nil, List.mem_cons,
    List.not_mem_nil, or_false, Set.mem_ofPred_eq] at member
  rcases member with rfl | rfl | rfl | rfl
  · exact le_rfl
  · exact bottom.le
  · exact top.le
  · exact le_rfl

/-- An outline that was moved starts at its offset. -/
theorem isLeast_shift (offset : ℚ) :
    IsLeast (breadth (shift offset board.outline)) offset := by
  have moved := (monotone_id.add_const offset).map_isLeast (isLeast_outline positive)
  rw [breadth_shift]
  simpa using moved

theorem rightEdge_nonneg : 0 ≤ rightEdge board.outline :=
  (isGreatest_largest _ _).2 (isLeast_outline positive).1

end Shifted

/-- An outline that was moved ends behind its offset by its right edge. -/
theorem isGreatest_shift (offset : ℚ) (board : Board ℚ) :
    IsGreatest (breadth (shift offset board.outline)) (rightEdge board.outline + offset) := by
  have isGreatest : IsGreatest (breadth board.outline) (rightEdge board.outline) :=
    isGreatest_largest _ _
  rw [breadth_shift]
  exact (monotone_id.add_const offset).map_isGreatest isGreatest

/-! ## Rows of outlines -/

variable {spacing : ℚ} {boards : List (Board ℚ)}

/-- Every board has one outline, which is moved along the first axis only. -/
theorem forall₂_layoutFrom (spacing offset : ℚ) (boards : List (Board ℚ)) :
    List.Forall₂ (fun board entry => entry.1 = board ∧
        ∃ offset : ℚ, entry.2 = board.outline.map fun corner => ⟨corner.x + offset, corner.y⟩)
      boards (layoutFrom spacing offset boards) := by
  induction boards generalizing offset with
  | nil => exact .nil
  | cons board rest inductionHypothesis =>
      exact .cons ⟨rfl, offset, rfl⟩ (inductionHypothesis _)

/-- Between neighbours there is just the space. -/
theorem isChain_layoutFrom
    (positive : ∀ board ∈ boards, board.HasPositiveFront)
    (offset : ℚ) :
    (layoutFrom spacing offset boards).IsChain fun first second =>
      HasSpaceBefore spacing first.2 second.2 := by
  induction boards generalizing offset with
  | nil => exact .nil
  | cons board rest inductionHypothesis =>
      obtain ⟨-, others⟩ := List.forall_mem_cons.mp positive
      refine List.isChain_cons.mpr ⟨fun second isNext => ?_, inductionHypothesis others _⟩
      cases rest with
      | nil => cases isNext
      | cons next further =>
          cases isNext
          refine ⟨_, _, isGreatest_shift offset board,
            isLeast_shift (others next List.mem_cons_self) _, ?_⟩
          ring

section Apart

variable (positive : ∀ board ∈ boards, board.HasPositiveFront) (nonnegative : 0 ≤ spacing)
include positive nonnegative

/-- The offset only grows, so that no outline starts in front of it. -/
theorem offset_le_layoutFrom (offset : ℚ) :
    ∀ entry ∈ layoutFrom spacing offset boards, ∀ corner ∈ entry.2, offset ≤ corner.x := by
  induction boards generalizing offset with
  | nil => exact fun entry member => absurd member List.not_mem_nil
  | cons board rest inductionHypothesis =>
      obtain ⟨here, others⟩ := List.forall_mem_cons.mp positive
      refine List.forall_mem_cons.mpr ⟨fun corner member => ?_, fun entry later corner member => ?_⟩
      · exact (isLeast_shift here offset).2 (List.mem_map_of_mem member)
      · have behind := inductionHypothesis others _ entry later corner member
        have wide := rightEdge_nonneg here
        linarith

/-- Every outline is apart from all those behind it. -/
theorem pairwise_layoutFrom (offset : ℚ) :
    (layoutFrom spacing offset boards).Pairwise fun first second =>
      ∀ left ∈ first.2, ∀ right ∈ second.2, left.x + spacing ≤ right.x := by
  induction boards generalizing offset with
  | nil => exact .nil
  | cons board rest inductionHypothesis =>
      obtain ⟨-, others⟩ := List.forall_mem_cons.mp positive
      refine List.pairwise_cons.mpr ⟨fun second later left isLeft right isRight => ?_,
        inductionHypothesis others _⟩
      have stops := (isGreatest_shift offset board).2 (List.mem_map_of_mem isLeft)
      have behind := offset_le_layoutFrom others nonnegative _ second later right isRight
      linarith

end Apart

/-- Boards with positive lengths are laid out side by side: each has its own outline, moved
along the first axis, and the first one is not moved. The smallest coordinate of an outline is
just the space behind the largest one of its neighbour. So no outline reaches into the space in
front of any of those behind it. -/
theorem layout_keeps_outlines_apart
    (positive : ∀ board ∈ boards, board.HasPositiveFront)
    (nonnegative : 0 ≤ spacing) :
    List.Forall₂ (fun board entry => entry.1 = board ∧
        ∃ offset : ℚ, entry.2 = board.outline.map fun corner => ⟨corner.x + offset, corner.y⟩)
      boards (layout spacing boards) ∧
    (∀ entry ∈ (layout spacing boards).head?, entry.2 = entry.1.outline) ∧
    ((layout spacing boards).IsChain fun first second =>
      HasSpaceBefore spacing first.2 second.2) ∧
    (layout spacing boards).Pairwise fun first second =>
      ∀ left ∈ first.2, ∀ right ∈ second.2, left.x + spacing ≤ right.x := by
  refine ⟨forall₂_layoutFrom spacing 0 boards, fun entry isFirst => ?_,
    isChain_layoutFrom positive 0, pairwise_layoutFrom positive nonnegative 0⟩
  cases boards with
  | nil => cases isFirst
  | cons board rest =>
      cases isFirst
      simp [shift]

/-- The upper edge of the first board is longer than its lower edge. -/
theorem exists_layout :
    ∃ first second : Board ℚ, first.edge .bottom = 10 ∧ first.edge .top = 14 ∧
      ((layout 3 [first, second]).map fun entry => entry.2.map (·.x)) =
        [[0, 10, 14, 0], [17, 22, 22, 17]] ∧
      (layout 3 [first, second]).IsChain fun first second =>
        HasSpaceBefore 3 first.2 second.2 := by
  let first : Board ℚ :=
    ⟨[], [], 10, 1, 1, none, none, none, false, 0, none, some ⟨none, none, some 14, none⟩, none,
      [], true⟩
  let second : Board ℚ :=
    ⟨[], [], 5, 1, 1, none, none, none, false, 0, none, none, none, [], true⟩
  have firstPositive : first.HasPositiveFront := by
    refine ⟨by norm_num [first], by norm_num [first], fun cuts side length known found => ?_⟩
    cases known
    cases side with
    | top =>
        cases found
        norm_num
    | _ => cases found
  have secondPositive : second.HasPositiveFront :=
    ⟨by norm_num [second], by norm_num [second], fun _ _ _ known => by cases known⟩
  obtain ⟨-, -, chain, -⟩ := @layout_keeps_outlines_apart 3 [first, second]
    (List.forall_mem_cons.mpr ⟨firstPositive, List.forall_mem_singleton.mpr secondPositive⟩)
    (by norm_num)
  exact ⟨first, second, rfl, rfl, by decide +kernel, chain⟩

end Outline
end Joinery
