import Joinery.Proofs.Ring.Simple

/-!
# Rings through four corners

The corners of an outline lie on the two axes, up to the one that is opposite to the
origin. If all the lengths between them are positive, then opposite edges are apart, and
neighbours have only their corner in common, even where three of the corners lie on a
line. So such a ring is simple.
-/

namespace Joinery
namespace Ring

/-- The points with the first one again at the end, if it is not there already. -/
def close (points : List (Point Int)) : List (Point Int) :=
  match points.head?, points.getLast? with
  | some first, some last => if first = last then points else points ++ [first]
  | _, _ => points

/-- A ring ends where it starts. -/
theorem head?_close (points : List (Point Int)) : (close points).head? = (close points).getLast? := by
  unfold close
  split
  next first last isFirst isLast =>
    split
    next same => rw [isFirst, isLast, same]
    next => rw [List.getLast?_concat, List.head?_append, isFirst, Option.some_or]
  next missing =>
    cases points with
    | nil => rfl
    | cons point rest =>
        exact absurd (List.getLast?_eq_some_getLast (List.cons_ne_nil point rest)) (missing _ _ rfl)

theorem length_le_length_close (points : List (Point Int)) :
    points.length ≤ (close points).length := by
  unfold close
  split
  · split
    · exact Nat.le_refl _
    · simp
  · exact Nat.le_refl _

/-- Corners of an outline with the lengths of its edges, from the origin over the end of
the lower edge. -/
def corners (bottom top right left : Int) : List (Point Int) :=
  [⟨0, 0⟩, ⟨bottom, 0⟩, ⟨top, right⟩, ⟨0, left⟩]

/-- The edge from the origin along the first axis. -/
def lowerEdge (bottom : Int) : Edge := ⟨⟨0, 0⟩, ⟨bottom, 0⟩⟩

/-- The edge from the first axis to the corner opposite to the origin. -/
def rightEdge (bottom top right : Int) : Edge := ⟨⟨bottom, 0⟩, ⟨top, right⟩⟩

/-- The edge from the corner opposite to the origin to the second axis. -/
def upperEdge (top right left : Int) : Edge := ⟨⟨top, right⟩, ⟨0, left⟩⟩

/-- The edge along the second axis back to the origin. -/
def leftEdge (left : Int) : Edge := ⟨⟨0, left⟩, ⟨0, 0⟩⟩

variable {bottom top right left : Int}

/-! ## What the edges have in common -/

theorem rightEdge_continues_lowerEdge (rightPositive : 0 < right) :
    (rightEdge bottom top right).Continues (lowerEdge bottom) := by
  refine ⟨rfl, ?_⟩
  rintro _ ⟨one, -, -, rfl⟩ ⟨two, -, -, same⟩
  simp only [lowerEdge, rightEdge, Edge.pointAt, Point.mk.injEq, Int.cast_zero, mul_zero,
    add_zero, zero_add, and_true] at same ⊢
  have start : two = 0 :=
    (mul_eq_zero.mp same.2).resolve_right (Int.cast_pos.mpr rightPositive).ne'
  rw [← same.1, start]
  ring

theorem lowerEdge_isApart_upperEdge (rightPositive : 0 < right) (leftPositive : 0 < left) :
    (lowerEdge bottom).IsApart (upperEdge top right left) := by
  rintro _ ⟨one, -, -, rfl⟩ ⟨two, above, below, same⟩
  simp only [lowerEdge, upperEdge, Edge.pointAt, Point.mk.injEq, Int.cast_zero, mul_zero,
    add_zero] at same
  exact (mixture_pos above below (Int.cast_pos.mpr rightPositive)
    (Int.cast_pos.mpr leftPositive)).ne' same.2

theorem lowerEdge_continues_leftEdge : (lowerEdge bottom).Continues (leftEdge left) := by
  refine ⟨rfl, ?_⟩
  rintro _ ⟨one, -, -, rfl⟩ ⟨two, -, -, same⟩
  simp only [lowerEdge, leftEdge, Edge.pointAt, Point.mk.injEq, Int.cast_zero, mul_zero,
    add_zero, true_and] at same ⊢
  exact same.2.symm

theorem upperEdge_continues_rightEdge
    (bottomPositive : 0 < bottom)
    (topPositive : 0 < top)
    (rightPositive : 0 < right)
    (leftPositive : 0 < left) :
    (upperEdge top right left).Continues (rightEdge bottom top right) := by
  have bottomAbove : (0 : ℚ) < bottom := Int.cast_pos.mpr bottomPositive
  have topAbove : (0 : ℚ) < top := Int.cast_pos.mpr topPositive
  have rightAbove : (0 : ℚ) < right := Int.cast_pos.mpr rightPositive
  have leftAbove : (0 : ℚ) < left := Int.cast_pos.mpr leftPositive
  refine ⟨rfl, ?_⟩
  rintro _ ⟨one, -, below, rfl⟩ ⟨two, above, -, same⟩
  simp only [rightEdge, upperEdge, Edge.pointAt, Point.mk.injEq, Int.cast_zero, mul_zero,
    add_zero, zero_add] at same ⊢
  -- What is left of the first edge and what is done of the second one bound each other.
  have widths : (1 - one) * bottom + two * top = (1 - one) * top := by linarith
  have heights : (1 - one) * right + two * left = two * right := by linarith
  have notMore : two ≤ 1 - one := by
    have rest := mul_nonneg (sub_nonneg.mpr below) bottomAbove.le
    exact le_of_mul_le_mul_right (by linarith) topAbove
  have notLess : 1 - one ≤ two := by
    have rest := mul_nonneg above leftAbove.le
    exact le_of_mul_le_mul_right (by linarith) rightAbove
  have stop : 1 - one = 0 := by
    rw [le_antisymm notMore notLess, add_eq_right] at widths
    exact (mul_eq_zero.mp widths).resolve_right bottomAbove.ne'
  obtain rfl : one = 1 := (sub_eq_zero.mp stop).symm
  constructor
  · ring
  · ring

theorem rightEdge_isApart_leftEdge (bottomPositive : 0 < bottom) (topPositive : 0 < top) :
    (rightEdge bottom top right).IsApart (leftEdge left) := by
  rintro _ ⟨one, above, below, rfl⟩ ⟨two, -, -, same⟩
  simp only [rightEdge, leftEdge, Edge.pointAt, Point.mk.injEq, Int.cast_zero, mul_zero,
    add_zero] at same
  exact (mixture_pos above below (Int.cast_pos.mpr bottomPositive)
    (Int.cast_pos.mpr topPositive)).ne same.1

theorem leftEdge_continues_upperEdge (topPositive : 0 < top) :
    (leftEdge left).Continues (upperEdge top right left) := by
  refine ⟨rfl, ?_⟩
  rintro _ ⟨one, -, -, rfl⟩ ⟨two, -, -, same⟩
  simp only [upperEdge, leftEdge, Edge.pointAt, Point.mk.injEq, Int.cast_zero, mul_zero,
    add_zero] at same ⊢
  have stop : 1 - one = 0 :=
    (mul_eq_zero.mp same.1.symm).resolve_right (Int.cast_pos.mpr topPositive).ne'
  obtain rfl : one = 1 := (sub_eq_zero.mp stop).symm
  constructor
  · ring
  · ring

/-! ## The ring -/

section Positive

variable (bottomPositive : 0 < bottom) (topPositive : 0 < top) (rightPositive : 0 < right)
  (leftPositive : 0 < left)

include bottomPositive topPositive rightPositive leftPositive

/-- Positive lengths give four edges. -/
theorem edges_close_corners :
    edges (close (corners bottom top right left)) =
      [lowerEdge bottom, rightEdge bottom top right, upperEdge top right left,
        leftEdge left] := by
  simp [corners, close, edges, lowerEdge, rightEdge, upperEdge, leftEdge, bottomPositive.ne,
    topPositive.ne', rightPositive.ne, leftPositive.ne, leftPositive.ne']

/-- A ring through four corners with positive lengths between them is simple. -/
theorem isSimple_corners : IsSimple (edges (close (corners bottom top right left))) := by
  rw [edges_close_corners bottomPositive topPositive rightPositive leftPositive]
  simp [IsSimple, Edge.IsClear, rightEdge_continues_lowerEdge rightPositive,
    lowerEdge_isApart_upperEdge rightPositive leftPositive, lowerEdge_continues_leftEdge,
    upperEdge_continues_rightEdge bottomPositive topPositive rightPositive leftPositive,
    rightEdge_isApart_leftEdge bottomPositive topPositive,
    leftEdge_continues_upperEdge topPositive]

end Positive
end Ring
end Joinery
