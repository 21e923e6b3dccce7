import Mathlib.Algebra.Order.Field.Basic
import Mathlib.Algebra.Order.Group.MinMax
import Mathlib.Data.Rat.Lemmas
import Mathlib.Order.Bounds.Basic
import Mathlib.Tactic.Linarith
import Mathlib.Tactic.Ring
import Joinery.Property

/-!
# Extents

The extent of some numbers goes from the smallest to the largest of them. A turned board is
a parallelogram, whose corners lie opposite to each other about its centre. So the centre of
its extent is its own centre, and along each axis it reaches half of both its edges further.
Numbers are exact here.
-/

namespace Joinery

/-! ## Extremes -/

section Extremes

variable {α : Type} [LinearOrder α]

/-- The largest of some numbers is one of them, and none of them is larger. -/
theorem isGreatest_largest (first : α) (others : List α) :
    IsGreatest {number | number ∈ first :: others} (largest first others) := by
  induction others generalizing first with
  | nil => exact ⟨List.mem_cons_self, fun number member => (List.mem_singleton.mp member).le⟩
  | cons next rest inductionHypothesis =>
      rw [largest, List.foldl_cons]
      split
      next less =>
        obtain ⟨member, bound⟩ := inductionHypothesis next
        refine ⟨List.mem_cons_of_mem _ member, fun number isNumber => ?_⟩
        rcases List.mem_cons.mp isNumber with rfl | later
        · exact less.le.trans (bound List.mem_cons_self)
        · exact bound later
      next notLess =>
        obtain ⟨member, bound⟩ := inductionHypothesis first
        refine ⟨?_, fun number isNumber => ?_⟩
        · rcases List.mem_cons.mp member with same | later
          · exact List.mem_cons.mpr (Or.inl same)
          · exact List.mem_cons_of_mem _ (List.mem_cons_of_mem _ later)
        · rcases List.mem_cons.mp isNumber with rfl | later
          · exact bound List.mem_cons_self
          · rcases List.mem_cons.mp later with rfl | later
            · exact (not_lt.mp notLess).trans (bound List.mem_cons_self)
            · exact bound (List.mem_cons_of_mem _ later)

/-- The smallest is the largest in the opposite order. -/
theorem isLeast_smallest (first : α) (others : List α) :
    IsLeast {number | number ∈ first :: others} (smallest first others) :=
  @isGreatest_largest αᵒᵈ _ first others

end Extremes

/-! ## Parallelograms -/

/-- Coordinates of the corners of a parallelogram, by those of the edges at its origin. -/
def parallelogram (origin first second : ℚ) : List ℚ :=
  [origin, origin + first, origin + first + second, origin + second]

section Parallelogram

variable {origin first second : ℚ}

theorem mem_parallelogram_iff {number : ℚ} :
    number ∈ parallelogram origin first second ↔
      number = origin ∨ number = origin + first ∨ number = origin + first + second ∨
        number = origin + second := by
  simp [parallelogram]

/-- Only the edges that point upwards add to the largest coordinate. -/
theorem isGreatest_parallelogram (origin first second : ℚ) :
    IsGreatest {number | number ∈ parallelogram origin first second}
      (origin + max 0 first + max 0 second) := by
  constructor
  · refine mem_parallelogram_iff.mpr ?_
    rcases max_choice 0 first with left | left
    · rcases max_choice 0 second with right | right
      · exact Or.inl (by rw [left, right, add_zero, add_zero])
      · exact Or.inr (Or.inr (Or.inr (by rw [left, right, add_zero])))
    · rcases max_choice 0 second with right | right
      · exact Or.inr (Or.inl (by rw [left, right, add_zero]))
      · exact Or.inr (Or.inr (Or.inl (by rw [left, right])))
  · intro number member
    have firstAbove := le_max_left 0 first
    have firstBelow := le_max_right 0 first
    have secondAbove := le_max_left 0 second
    have secondBelow := le_max_right 0 second
    rcases mem_parallelogram_iff.mp member with rfl | rfl | rfl | rfl
    · linarith
    · linarith
    · linarith
    · linarith

/-- Opposite every corner of a parallelogram there is another one. -/
theorem opposite_mem_parallelogram
    {number : ℚ}
    (member : number ∈ parallelogram origin first second) :
    2 * origin + first + second - number ∈ parallelogram origin first second := by
  refine mem_parallelogram_iff.mpr ?_
  rcases mem_parallelogram_iff.mp member with rfl | rfl | rfl | rfl
  · exact Or.inr (Or.inr (Or.inl (by ring)))
  · exact Or.inr (Or.inr (Or.inr (by ring)))
  · exact Or.inl (by ring)
  · exact Or.inr (Or.inl (by ring))

/-- The smallest coordinate lies opposite the largest one. -/
theorem opposite_isLeast
    {most : ℚ}
    (isGreatest : IsGreatest {number | number ∈ parallelogram origin first second} most) :
    IsLeast {number | number ∈ parallelogram origin first second}
      (2 * origin + first + second - most) := by
  refine ⟨opposite_mem_parallelogram isGreatest.1, fun number member => ?_⟩
  have below := isGreatest.2 (opposite_mem_parallelogram member)
  linarith

/-- The centre between the smallest and the largest coordinate. -/
theorem center_parallelogram
    {least most : ℚ}
    (isLeast : IsLeast {number | number ∈ parallelogram origin first second} least)
    (isGreatest : IsGreatest {number | number ∈ parallelogram origin first second} most) :
    (least + most) / 2 = origin + (first + second) / 2 := by
  rw [isLeast.unique (opposite_isLeast isGreatest)]
  ring

/-- The largest coordinate is half of both edges away from the centre. -/
theorem largest_parallelogram
    {most : ℚ}
    (isGreatest : IsGreatest {number | number ∈ parallelogram origin first second} most) :
    most = origin + (first + second) / 2 + (|first| + |second|) / 2 := by
  have upper (edge : ℚ) : max 0 edge = (edge + |edge|) / 2 := by
    rcases le_total 0 edge with up | down
    · rw [max_eq_right up, abs_of_nonneg up]
      ring
    · rw [max_eq_left down, abs_of_nonpos down]
      ring
  rw [isGreatest.unique (isGreatest_parallelogram origin first second), upper, upper]
  ring

end Parallelogram

/-! ## Turned boards -/

/-- Without signed zeros, a coordinate that is set is the origin itself. -/
theorem coordinate_eq_getD (value : Option ℚ) : coordinate value = value.getD 0 := by
  cases value with
  | none => rfl
  | some number =>
      rw [coordinate, Option.getD_some, ite_eq_right_iff, beq_iff_eq]
      exact fun zero => zero.symm

namespace Board

section Turned

variable (turn : Turn ℚ) (board : Board ℚ)

/-- First coordinates of the corners of a turned board. -/
theorem corners_x :
    (board.corners turn).map (·.x) =
      parallelogram board.originX (board.width * turn.cosine) (-(board.height * turn.sine)) := by
  simp only [corners, secondCorner, thirdCorner, lastCorner, List.map_cons, List.map_nil,
    parallelogram, sub_eq_add_neg]

/-- Second coordinates of the corners of a turned board. -/
theorem corners_y :
    (board.corners turn).map (·.y) =
      parallelogram board.originY (board.width * turn.sine) (board.height * turn.cosine) :=
  rfl

theorem isGreatest_right :
    IsGreatest {number | number ∈ parallelogram board.originX (board.width * turn.cosine)
      (-(board.height * turn.sine))} (board.turnedMeasure turn .right) := by
  rw [← corners_x]
  exact isGreatest_largest _ _

theorem isGreatest_top :
    IsGreatest {number | number ∈ parallelogram board.originY (board.width * turn.sine)
      (board.height * turn.cosine)} (board.turnedMeasure turn .top) :=
  isGreatest_largest _ _

theorem turnedMeasure_centerX :
    board.turnedMeasure turn .centerX =
      board.originX + (board.width * turn.cosine - board.height * turn.sine) / 2 := by
  have isLeast := isLeast_smallest board.originX (((board.corners turn).tail).map (·.x))
  change IsLeast {number | number ∈ (board.corners turn).map (·.x)} _ at isLeast
  rw [corners_x] at isLeast
  rw [sub_eq_add_neg]
  exact center_parallelogram isLeast (isGreatest_right turn board)

theorem turnedMeasure_centerY :
    board.turnedMeasure turn .centerY =
      board.originY + (board.width * turn.sine + board.height * turn.cosine) / 2 :=
  center_parallelogram (isLeast_smallest _ _) (isGreatest_top turn board)

theorem turnedMeasure_right :
    board.turnedMeasure turn .right =
      board.turnedMeasure turn .centerX +
        (|board.width * turn.cosine| + |board.height * turn.sine|) / 2 := by
  rw [largest_parallelogram (isGreatest_right turn board), turnedMeasure_centerX, abs_neg,
    sub_eq_add_neg]

theorem turnedMeasure_top :
    board.turnedMeasure turn .top =
      board.turnedMeasure turn .centerY +
        (|board.width * turn.sine| + |board.height * turn.cosine|) / 2 := by
  rw [largest_parallelogram (isGreatest_top turn board), turnedMeasure_centerY]

/-- No corner lies outside of the extent. -/
theorem corner_le_extent :
    ∀ corner ∈ board.corners turn,
      corner.x ≤ board.turnedMeasure turn .right ∧ corner.y ≤ board.turnedMeasure turn .top := by
  intro corner member
  refine ⟨(isGreatest_right turn board).2 ?_, (isGreatest_top turn board).2 ?_⟩
  · rw [← corners_x]
    exact List.mem_map_of_mem member
  · rw [← corners_y]
    exact List.mem_map_of_mem member

/-- The centre of the extent lies in the middle between opposite corners. -/
theorem opposite_mem_corners :
    ∀ corner ∈ board.corners turn,
      (⟨2 * board.turnedMeasure turn .centerX - corner.x,
        2 * board.turnedMeasure turn .centerY - corner.y⟩ : Point ℚ) ∈ board.corners turn := by
  intro corner member
  rw [turnedMeasure_centerX, turnedMeasure_centerY]
  simp only [corners, List.mem_cons, List.not_mem_nil, or_false] at member ⊢
  rcases member with rfl | rfl | rfl | rfl
  · refine Or.inr (Or.inr (Or.inl ?_))
    simp only [thirdCorner, Point.mk.injEq]
    exact ⟨by ring, by ring⟩
  · refine Or.inr (Or.inr (Or.inr ?_))
    simp only [secondCorner, lastCorner, Point.mk.injEq]
    exact ⟨by ring, by ring⟩
  · refine Or.inl ?_
    simp only [thirdCorner, Point.mk.injEq]
    exact ⟨by ring, by ring⟩
  · refine Or.inr (Or.inl ?_)
    simp only [secondCorner, lastCorner, Point.mk.injEq]
    exact ⟨by ring, by ring⟩

/-- A board with lengths that are not negative has the same extent when it is turned by
nothing as when it is upright. -/
theorem turnedMeasure_eq_uprightMeasure
    {turn : Turn ℚ}
    {board : Board ℚ}
    (cosine : turn.cosine = 1)
    (sine : turn.sine = 0)
    (width : 0 ≤ board.width)
    (height : 0 ≤ board.height)
    (property : Property) :
    board.turnedMeasure turn property = board.uprightMeasure property := by
  cases property with
  | right =>
      rw [turnedMeasure_right, turnedMeasure_centerX, cosine, sine, mul_zero, mul_one, abs_zero,
        abs_of_nonneg width, uprightMeasure]
      ring
  | top =>
      rw [turnedMeasure_top, turnedMeasure_centerY, cosine, sine, mul_zero, mul_one, abs_zero,
        abs_of_nonneg height, uprightMeasure]
      ring
  | centerX =>
      rw [turnedMeasure_centerX, cosine, sine, mul_zero, mul_one, sub_zero]
      rfl
  | centerY =>
      rw [turnedMeasure_centerY, cosine, sine, mul_zero, mul_one, zero_add]
      rfl
  | endX =>
      change board.originX + board.width * turn.cosine = board.originX + board.width
      rw [cosine, mul_one]
  | endY =>
      change board.originY + board.width * turn.sine = board.originY
      rw [sine, mul_zero, add_zero]
  | _ => rfl

end Turned

/-- The extent of a turned board, for any cosine and sine of its angle. The centre is that of
the board itself, and half of both edges lies between it and the right and the top. No corner
is outside. With lengths that are not negative, a board that is turned by nothing has all the
properties of an upright one. -/
theorem extent_of_turned_board (turn : Turn ℚ) (board : Board ℚ) :
    let measure := board.turnedMeasure turn
    let x := board.x.getD 0
    let y := board.y.getD 0
    let w := board.width
    let h := board.height
    let c := turn.cosine
    let s := turn.sine
    measure .centerX = x + (w * c - h * s) / 2 ∧
      measure .centerY = y + (w * s + h * c) / 2 ∧
      measure .right = measure .centerX + (|w * c| + |h * s|) / 2 ∧
      measure .top = measure .centerY + (|w * s| + |h * c|) / 2 ∧
      (∀ corner ∈ board.corners turn,
        (⟨2 * measure .centerX - corner.x, 2 * measure .centerY - corner.y⟩ : Point ℚ) ∈
          board.corners turn) ∧
      (∀ corner ∈ board.corners turn, corner.x ≤ measure .right ∧ corner.y ≤ measure .top) ∧
      (c = 1 → s = 0 → 0 ≤ w → 0 ≤ h →
        ∀ property, measure property = board.uprightMeasure property) := by
  intro measure x y w h c s
  have centerX := turnedMeasure_centerX turn board
  have centerY := turnedMeasure_centerY turn board
  rw [originX, coordinate_eq_getD] at centerX
  rw [originY, coordinate_eq_getD] at centerY
  exact ⟨centerX, centerY, turnedMeasure_right turn board, turnedMeasure_top turn board,
    opposite_mem_corners turn board, corner_le_extent turn board,
    turnedMeasure_eq_uprightMeasure⟩

/-- The width points to the right and up, and the height to the left and up. -/
theorem exists_extent_of_turned_board :
    ∃ board : Board ℚ, board.width = 10 ∧ board.height = 5 ∧
      board.turnedMeasure ⟨3 / 5, 4 / 5⟩ .centerX = 1 ∧
      board.turnedMeasure ⟨3 / 5, 4 / 5⟩ .right = 6 ∧
      board.turnedMeasure ⟨3 / 5, 4 / 5⟩ .top = 11 ∧
      board.turnedMeasure ⟨1, 0⟩ .top = 5 := by
  let board : Board ℚ :=
    ⟨[], [], 10, 5, 1, none, none, none, false, 0, none, none, none, [], true⟩
  obtain ⟨centerX, centerY, right, top, -⟩ := extent_of_turned_board ⟨3 / 5, 4 / 5⟩ board
  have upright := (extent_of_turned_board ⟨1, 0⟩ board).2.2.2.2.2.2 rfl rfl (by norm_num [board])
    (by norm_num [board]) .top
  refine ⟨board, rfl, rfl, ?_, ?_, ?_, ?_⟩
  · rw [centerX]
    norm_num [board]
  · rw [right, centerX]
    norm_num [board]
  · rw [top, centerY]
    norm_num [board]
  · rw [upright]
    norm_num [board, uprightMeasure, originY, coordinate]

end Board
end Joinery
