import Joinery.Ring
import Mathlib.Algebra.Order.Field.Rat
import Mathlib.Algebra.Order.Ring.Int
import Mathlib.Tactic.FieldSimp
import Mathlib.Tactic.Linarith
import Mathlib.Tactic.LinearCombination
import Mathlib.Tactic.Positivity
import Mathlib.Tactic.Ring

/-!
# Points that edges have in common

The tests on edges are exact. Two edges meet if there is a point on both of them, and an
edge folds into the next one if their corner is not the only such point.
-/

namespace Joinery
namespace Ring

theorem mixture_pos
    {share first last : ℚ}
    (above : 0 ≤ share)
    (below : share ≤ 1)
    (firstPositive : 0 < first)
    (lastPositive : 0 < last) :
    0 < (1 - share) * first + share * last := by
  rcases above.eq_or_lt with rfl | inside
  · simpa using firstPositive
  · exact add_pos_of_nonneg_of_pos (mul_nonneg (sub_nonneg.mpr below) firstPositive.le)
      (mul_pos inside lastPositive)

namespace Edge

/-- The point of an edge that has some share of the way from its start to its stop. -/
def pointAt (edge : Edge) (share : ℚ) : Point ℚ :=
  ⟨(1 - share) * edge.start.x + share * edge.stop.x,
    (1 - share) * edge.start.y + share * edge.stop.y⟩

/-- A point on the way from the start of an edge to its stop. -/
def Contains (edge : Edge) (point : Point ℚ) : Prop :=
  ∃ share, 0 ≤ share ∧ share ≤ 1 ∧ edge.pointAt share = point

variable {first second : Edge}

theorem contains_start (edge : Edge) : edge.Contains ⟨edge.start.x, edge.start.y⟩ :=
  ⟨0, le_refl 0, zero_le_one, by simp [pointAt]⟩

theorem contains_stop (edge : Edge) : edge.Contains ⟨edge.stop.x, edge.stop.y⟩ :=
  ⟨1, zero_le_one, le_refl 1, by simp [pointAt]⟩

/-- Where an edge is met, the ends of the other edge are on different sides of it. -/
theorem turning_mixture
    {share otherShare : ℚ}
    (same : first.pointAt share = second.pointAt otherShare) :
    (1 - otherShare) * turning first.start first.stop second.start +
      otherShare * turning first.start first.stop second.stop = 0 := by
  rw [pointAt, pointAt, Point.mk.injEq] at same
  obtain ⟨x, y⟩ := same
  simp only [turning, Int.cast_sub, Int.cast_mul]
  linear_combination (first.stop.y - first.start.y : ℚ) * x -
    (first.stop.x - first.start.x : ℚ) * y

/-- The sides of two edges on which their ends are depend on each other. -/
theorem turning_sub (first second : Edge) :
    turning first.start first.stop second.start - turning first.start first.stop second.stop =
      turning second.start second.stop first.stop -
        turning second.start second.stop first.start := by
  simp only [turning]
  ring

/-- Of two numbers with the same sign, only zeros have a mixture that is zero. -/
theorem eq_zero_of_mixture
    {share : ℚ}
    {start stop : Int}
    (above : 0 ≤ share)
    (below : share ≤ 1)
    (sameSign : start.sign = stop.sign)
    (zero : (1 - share) * start + share * stop = 0) :
    start = 0 ∧ stop = 0 := by
  rcases lt_trichotomy start 0 with negative | rfl | positive
  · have alsoNegative : stop < 0 :=
      Int.sign_eq_neg_one_iff_neg.mp (sameSign ▸ Int.sign_eq_neg_one_of_neg negative)
    have mixed := mixture_pos above below (neg_pos.mpr (Int.cast_lt_zero.mpr negative))
      (neg_pos.mpr (Int.cast_lt_zero.mpr alsoNegative))
    linarith
  · exact ⟨rfl, Int.sign_eq_zero_iff_zero.mp sameSign.symm⟩
  · have alsoPositive : 0 < stop :=
      Int.sign_eq_one_iff_pos.mp (sameSign ▸ Int.sign_eq_one_of_pos positive)
    have mixed := mixture_pos above below (Int.cast_pos.mpr positive)
      (Int.cast_pos.mpr alsoPositive)
    exact absurd zero mixed.ne'

/-! ## Corners on edges -/

theorem between_of_mixture
    {share : ℚ}
    {start middle stop : Int}
    (above : 0 ≤ share)
    (below : share ≤ 1)
    (same : (1 - share) * start + share * stop = middle) :
    between start middle stop = true := by
  simp only [between, Bool.and_eq_true, decide_eq_true_eq]
  have rest := sub_nonneg.mpr below
  rcases le_total start stop with rising | falling
  · have way := sub_nonneg.mpr (Int.cast_le (R := ℚ).mpr rising)
    have done := mul_nonneg above way
    have left := mul_nonneg rest way
    rw [min_eq_left rising, max_eq_right rising, ← Int.cast_le (R := ℚ),
      ← Int.cast_le (R := ℚ)]
    constructor <;> linarith
  · have way := sub_nonneg.mpr (Int.cast_le (R := ℚ).mpr falling)
    have done := mul_nonneg above way
    have left := mul_nonneg rest way
    rw [min_eq_right falling, max_eq_left falling, ← Int.cast_le (R := ℚ),
      ← Int.cast_le (R := ℚ)]
    constructor <;> linarith

/-- A mixture that is between two different numbers has shares of both. -/
theorem share_bounds
    {share : ℚ}
    {start middle stop : Int}
    (inside : between start middle stop = true)
    (different : start ≠ stop)
    (same : (1 - share) * start + share * stop = middle) :
    0 ≤ share ∧ share ≤ 1 := by
  simp only [between, Bool.and_eq_true, decide_eq_true_eq] at inside
  rcases lt_or_gt_of_ne different with rising | falling
  · rw [min_eq_left rising.le, max_eq_right rising.le, ← Int.cast_le (R := ℚ),
      ← Int.cast_le (R := ℚ)] at inside
    have way := sub_pos.mpr (Int.cast_lt (R := ℚ).mpr rising)
    refine ⟨nonneg_of_mul_nonneg_left (b := (stop - start : ℚ)) ?_ way,
      sub_nonneg.mp (nonneg_of_mul_nonneg_left (b := (stop - start : ℚ)) ?_ way)⟩
    · linarith
    · linarith
  · rw [min_eq_right falling.le, max_eq_left falling.le, ← Int.cast_le (R := ℚ),
      ← Int.cast_le (R := ℚ)] at inside
    have way := sub_pos.mpr (Int.cast_lt (R := ℚ).mpr falling)
    refine ⟨nonneg_of_mul_nonneg_left (b := (start - stop : ℚ)) ?_ way,
      sub_nonneg.mp (nonneg_of_mul_nonneg_left (b := (start - stop : ℚ)) ?_ way)⟩
    · linarith
    · linarith

theorem x_or_y_ne {one two : Point Int} (different : one ≠ two) : one.x ≠ two.x ∨ one.y ≠ two.y := by
  by_contra same
  push Not at same
  obtain ⟨x, y⟩ := one
  exact different (congrArg₂ Point.mk same.1 same.2)

/-- On the line through an edge with different ends, every corner is some way along it. -/
theorem exists_pointAt
    {edge : Edge}
    {point : Point Int}
    (different : edge.start ≠ edge.stop)
    (straight : turning edge.start edge.stop point = 0) :
    ∃ share, edge.pointAt share = ⟨point.x, point.y⟩ := by
  have product : (edge.stop.x - edge.start.x : ℚ) * (point.y - edge.start.y) =
      (edge.stop.y - edge.start.y) * (point.x - edge.start.x) := by
    rw [turning, sub_eq_zero] at straight
    exact_mod_cast straight
  simp only [pointAt, Point.mk.injEq]
  rcases x_or_y_ne different with wide | high
  · have nonzero : (edge.stop.x - edge.start.x : ℚ) ≠ 0 :=
      sub_ne_zero.mpr (Int.cast_injective.ne wide.symm)
    refine ⟨(point.x - edge.start.x) / (edge.stop.x - edge.start.x), ?_, ?_⟩
    · field_simp
      ring
    · field_simp
      linear_combination -product
  · have nonzero : (edge.stop.y - edge.start.y : ℚ) ≠ 0 :=
      sub_ne_zero.mpr (Int.cast_injective.ne high.symm)
    refine ⟨(point.y - edge.start.y) / (edge.stop.y - edge.start.y), ?_, ?_⟩
    · field_simp
      linear_combination product
    · field_simp
      ring

/-- A corner on the line through an edge is a point of the edge if it is between its ends. -/
theorem covers_iff
    {edge : Edge}
    {point : Point Int}
    (straight : turning edge.start edge.stop point = 0) :
    covers edge.start edge.stop point = true ↔ edge.Contains ⟨point.x, point.y⟩ := by
  rw [covers, Bool.and_eq_true]
  constructor
  · rintro ⟨x, y⟩
    by_cases equal : edge.start = edge.stop
    · -- The ends are equal, and so is the corner.
      simp only [between, equal, min_self, max_self, Bool.and_eq_true, decide_eq_true_eq] at x y
      rw [le_antisymm x.2 x.1, le_antisymm y.2 y.1]
      exact edge.contains_stop
    · obtain ⟨share, same⟩ := exists_pointAt equal straight
      have parts := same
      rw [pointAt, Point.mk.injEq] at parts
      rcases x_or_y_ne equal with wide | high
      · obtain ⟨above, below⟩ := share_bounds x wide parts.1
        exact ⟨share, above, below, same⟩
      · obtain ⟨above, below⟩ := share_bounds y high parts.2
        exact ⟨share, above, below, same⟩
  · rintro ⟨share, above, below, same⟩
    rw [pointAt, Point.mk.injEq] at same
    exact ⟨between_of_mixture above below same.1, between_of_mixture above below same.2⟩

/-! ## Edges that meet -/

/-- Between two numbers of different signs there is a zero. -/
theorem exists_zero_mixture
    {start stop : ℚ}
    (different : start ≠ stop)
    (opposite : start ≤ 0 ∧ 0 ≤ stop ∨ stop ≤ 0 ∧ 0 ≤ start) :
    ∃ share, 0 ≤ share ∧ share ≤ 1 ∧ (1 - share) * start + share * stop = 0 := by
  have nonzero : start - stop ≠ 0 := sub_ne_zero.mpr different
  refine ⟨start / (start - stop), ?_, ?_, by field_simp; ring⟩
  · rcases opposite with ⟨below, above⟩ | ⟨below, above⟩
    · exact div_nonneg_of_nonpos below (by linarith)
    · exact div_nonneg above (by linarith)
  · rcases opposite with ⟨below, above⟩ | ⟨below, above⟩
    · rw [div_le_one_of_neg (lt_of_le_of_ne (by linarith) nonzero)]
      linarith
    · rw [div_le_one (lt_of_le_of_ne (by linarith) nonzero.symm)]
      linarith

/-- Two lines that are not parallel have only one point in common. -/
theorem pointAt_eq_of_turning
    {share otherShare : ℚ}
    (crossing : (turning first.start first.stop second.start : ℚ) ≠
      turning first.start first.stop second.stop)
    (onFirst : (1 - otherShare) * turning first.start first.stop second.start +
      otherShare * turning first.start first.stop second.stop = 0)
    (onSecond : (1 - share) * turning second.start second.stop first.start +
      share * turning second.start second.stop first.stop = 0) :
    first.pointAt share = second.pointAt otherShare := by
  rw [pointAt, pointAt, Point.mk.injEq]
  have nonzero := sub_ne_zero.mpr crossing
  simp only [turning, Int.cast_sub, Int.cast_mul] at nonzero onFirst onSecond
  constructor
  · refine mul_right_cancel₀ nonzero ?_
    linear_combination (second.stop.x - second.start.x : ℚ) * onFirst +
      (first.stop.x - first.start.x : ℚ) * onSecond
  · refine mul_right_cancel₀ nonzero ?_
    linear_combination (second.stop.y - second.start.y : ℚ) * onFirst +
      (first.stop.y - first.start.y : ℚ) * onSecond

/-- Numbers with different signs are different, and not on the same side of zero. -/
theorem opposite_of_sign_ne {start stop : Int} (different : start.sign ≠ stop.sign) :
    (start : ℚ) ≠ stop ∧
      ((start : ℚ) ≤ 0 ∧ (0 : ℚ) ≤ stop ∨ (stop : ℚ) ≤ 0 ∧ (0 : ℚ) ≤ start) := by
  refine ⟨fun same => different (congrArg Int.sign (Int.cast_injective same)), ?_⟩
  rcases lt_trichotomy start 0 with negative | rfl | positive
  · have above : 0 ≤ stop := by
      by_contra below
      rw [Int.sign_eq_neg_one_of_neg negative,
        Int.sign_eq_neg_one_of_neg (not_le.mp below)] at different
      exact different rfl
    exact Or.inl ⟨(Int.cast_lt_zero.mpr negative).le, Int.cast_nonneg above⟩
  · rcases le_total stop 0 with below | above
    · exact Or.inr ⟨Int.cast_nonpos.mpr below, by simp⟩
    · exact Or.inl ⟨by simp, Int.cast_nonneg above⟩
  · have below : stop ≤ 0 := by
      by_contra above
      rw [Int.sign_eq_one_of_pos positive,
        Int.sign_eq_one_of_pos (not_le.mp above)] at different
      exact different rfl
    exact Or.inr ⟨Int.cast_nonpos.mpr below, (Int.cast_pos.mpr positive).le⟩

/-- Edges that separate each other's ends have a point in common. -/
theorem exists_common_of_sign_ne
    (ends : (turning first.start first.stop second.start).sign ≠
      (turning first.start first.stop second.stop).sign)
    (otherEnds : (turning second.start second.stop first.start).sign ≠
      (turning second.start second.stop first.stop).sign) :
    ∃ point, first.Contains point ∧ second.Contains point := by
  obtain ⟨different, opposite⟩ := opposite_of_sign_ne ends
  obtain ⟨otherDifferent, otherOpposite⟩ := opposite_of_sign_ne otherEnds
  obtain ⟨otherShare, otherAbove, otherBelow, onFirst⟩ :=
    exists_zero_mixture different opposite
  obtain ⟨share, above, below, onSecond⟩ := exists_zero_mixture otherDifferent otherOpposite
  exact ⟨first.pointAt share, ⟨share, above, below, rfl⟩, otherShare, otherAbove, otherBelow,
    (pointAt_eq_of_turning different onFirst onSecond).symm⟩

/-- Unless two edges separate each other's ends, they are on one line if they have a point
in common. -/
theorem straight_of_common
    {share otherShare : ℚ}
    (above : 0 ≤ share)
    (below : share ≤ 1)
    (otherAbove : 0 ≤ otherShare)
    (otherBelow : otherShare ≤ 1)
    (same : first.pointAt share = second.pointAt otherShare)
    (ends : (turning first.start first.stop second.start).sign =
      (turning first.start first.stop second.stop).sign) :
    (turning first.start first.stop second.start = 0 ∧
        turning first.start first.stop second.stop = 0) ∧
      turning second.start second.stop first.start = 0 ∧
        turning second.start second.stop first.stop = 0 := by
  have zeros := eq_zero_of_mixture otherAbove otherBelow ends (turning_mixture same)
  have depend := turning_sub first second
  rw [zeros.1, zeros.2, sub_self, eq_comm, sub_eq_zero] at depend
  exact ⟨zeros, eq_zero_of_mixture above below (congrArg Int.sign depend.symm)
    (turning_mixture same.symm)⟩

theorem pointAt_injective
    {edge : Edge}
    {share otherShare : ℚ}
    (different : edge.start ≠ edge.stop)
    (same : edge.pointAt share = edge.pointAt otherShare) :
    share = otherShare := by
  rw [pointAt, pointAt, Point.mk.injEq] at same
  rcases x_or_y_ne different with wide | high
  · have nonzero : (edge.stop.x - edge.start.x : ℚ) ≠ 0 :=
      sub_ne_zero.mpr (Int.cast_injective.ne wide.symm)
    exact mul_right_cancel₀ nonzero (by linarith [same.1])
  · have nonzero : (edge.stop.y - edge.start.y : ℚ) ≠ 0 :=
      sub_ne_zero.mpr (Int.cast_injective.ne high.symm)
    exact mul_right_cancel₀ nonzero (by linarith [same.2])

/-- Points of an edge whose ends are on the line through another one. -/
theorem pointAt_mixture
    {start stop : ℚ}
    (starts : first.pointAt start = ⟨second.start.x, second.start.y⟩)
    (stops : first.pointAt stop = ⟨second.stop.x, second.stop.y⟩)
    (share : ℚ) :
    second.pointAt share = first.pointAt ((1 - share) * start + share * stop) := by
  rw [pointAt, Point.mk.injEq] at starts stops
  rw [pointAt, pointAt, Point.mk.injEq, ← starts.1, ← starts.2, ← stops.1, ← stops.2]
  constructor <;> ring

/-- Of two edges on one line that have a point in common, one contains an end of the
other. -/
theorem exists_end_of_common
    {point : Point ℚ}
    (start : turning first.start first.stop second.start = 0)
    (stop : turning first.start first.stop second.stop = 0)
    (onFirst : first.Contains point)
    (onSecond : second.Contains point) :
    first.Contains ⟨second.start.x, second.start.y⟩ ∨
      first.Contains ⟨second.stop.x, second.stop.y⟩ ∨
      second.Contains ⟨first.start.x, first.start.y⟩ := by
  obtain ⟨share, above, below, rfl⟩ := onFirst
  obtain ⟨otherShare, otherAbove, otherBelow, same⟩ := onSecond
  by_cases equal : first.start = first.stop
  · have only : first.pointAt share = ⟨first.start.x, first.start.y⟩ := by
      rw [pointAt, ← equal, Point.mk.injEq]
      constructor <;> ring
    exact Or.inr (Or.inr ⟨otherShare, otherAbove, otherBelow, same.trans only⟩)
  · obtain ⟨startShare, starts⟩ := exists_pointAt equal start
    obtain ⟨stopShare, stops⟩ := exists_pointAt equal stop
    have mixed : (1 - otherShare) * startShare + otherShare * stopShare = share :=
      pointAt_injective equal ((pointAt_mixture starts stops otherShare).symm.trans same)
    by_cases startInside : 0 ≤ startShare ∧ startShare ≤ 1
    · exact Or.inl ⟨startShare, startInside.1, startInside.2, starts⟩
    by_cases stopInside : 0 ≤ stopShare ∧ stopShare ≤ 1
    · exact Or.inr (Or.inl ⟨stopShare, stopInside.1, stopInside.2, stops⟩)
    -- The ends of the second edge are on different sides of the first edge, around it.
    rw [not_and_or, not_le, not_le] at startInside stopInside
    have around : startShare ≠ stopShare ∧
        (startShare ≤ 0 ∧ 0 ≤ stopShare ∨ stopShare ≤ 0 ∧ 0 ≤ startShare) := by
      rcases startInside with before | behind
      · rcases stopInside with alsoBefore | behind
        · have outside := mixture_pos otherAbove otherBelow (neg_pos.mpr before)
            (neg_pos.mpr alsoBefore)
          linarith
        · exact ⟨by linarith, Or.inl ⟨by linarith, by linarith⟩⟩
      · rcases stopInside with before | alsoBehind
        · exact ⟨by linarith, Or.inr ⟨by linarith, by linarith⟩⟩
        · have outside := mixture_pos otherAbove otherBelow (sub_pos.mpr behind)
            (sub_pos.mpr alsoBehind)
          linarith
    obtain ⟨zeroShare, zeroAbove, zeroBelow, zero⟩ := exists_zero_mixture around.1 around.2
    refine Or.inr (Or.inr ⟨zeroShare, zeroAbove, zeroBelow, ?_⟩)
    rw [pointAt_mixture starts stops, zero]
    simp [pointAt]

/-- Two edges meet exactly if they have a point in common. -/
theorem meets_iff :
    first.meets second = true ↔ ∃ point, first.Contains point ∧ second.Contains point := by
  constructor
  · intro met
    simp only [meets, Bool.or_eq_true, Bool.and_eq_true, decide_eq_true_eq, beq_iff_eq,
      Int.sign_eq_zero_iff_zero] at met
    rcases met with (((⟨ends, otherEnds⟩ | ⟨straight, covered⟩) | ⟨straight, covered⟩) |
      ⟨straight, covered⟩) | ⟨straight, covered⟩
    · exact exists_common_of_sign_ne ends otherEnds
    · exact ⟨_, (covers_iff straight).mp covered, second.contains_start⟩
    · exact ⟨_, (covers_iff straight).mp covered, second.contains_stop⟩
    · exact ⟨_, first.contains_start, (covers_iff straight).mp covered⟩
    · exact ⟨_, first.contains_stop, (covers_iff straight).mp covered⟩
  · rintro ⟨point, ⟨share, above, below, onFirst⟩, otherShare, otherAbove, otherBelow, onSecond⟩
    have same := onFirst.trans onSecond.symm
    have ends :
        ((turning first.start first.stop second.start).sign ≠
            (turning first.start first.stop second.stop).sign ∧
          (turning second.start second.stop first.start).sign ≠
            (turning second.start second.stop first.stop).sign) ∨
        (turning first.start first.stop second.start = 0 ∧
            turning first.start first.stop second.stop = 0) ∧
          turning second.start second.stop first.start = 0 ∧
            turning second.start second.stop first.stop = 0 := by
      by_cases ends : (turning first.start first.stop second.start).sign =
          (turning first.start first.stop second.stop).sign
      · exact Or.inr (straight_of_common above below otherAbove otherBelow same ends)
      · by_cases otherEnds : (turning second.start second.stop first.start).sign =
            (turning second.start second.stop first.stop).sign
        · exact Or.inr (straight_of_common otherAbove otherBelow above below same.symm
            otherEnds).symm
        · exact Or.inl ⟨ends, otherEnds⟩
    simp only [meets, Bool.or_eq_true, Bool.and_eq_true, decide_eq_true_eq, beq_iff_eq,
      Int.sign_eq_zero_iff_zero]
    rcases ends with apart | ⟨⟨start, stop⟩, otherStart, otherStop⟩
    · simp only [apart, ne_eq, not_false_eq_true, and_self, true_or]
    · rcases exists_end_of_common start stop ⟨share, above, below, onFirst⟩
        ⟨otherShare, otherAbove, otherBelow, onSecond⟩ with inside | inside | inside
      · simp only [start, (covers_iff start).mpr inside, and_self, true_or, or_true]
      · simp only [stop, (covers_iff stop).mpr inside, and_self, true_or, or_true]
      · simp only [otherStart, (covers_iff otherStart).mpr inside, and_self, true_or, or_true]

/-! ## Edges that fold -/

/-- The square of the length of an edge. -/
def square (edge : Edge) : ℚ :=
  (edge.start.x - edge.stop.x) ^ 2 + (edge.start.y - edge.stop.y) ^ 2

theorem square_pos {edge : Edge} (different : edge.start ≠ edge.stop) : 0 < edge.square := by
  unfold square
  rcases x_or_y_ne different with wide | high
  · have nonzero : (edge.start.x - edge.stop.x : ℚ) ≠ 0 :=
      sub_ne_zero.mpr (Int.cast_injective.ne wide)
    positivity
  · have nonzero : (edge.start.y - edge.stop.y : ℚ) ≠ 0 :=
      sub_ne_zero.mpr (Int.cast_injective.ne high)
    positivity

/-- An edge whose stop is on the line through the edge before it runs back exactly if it
stops before the corner between them. -/
theorem runsBack_iff
    {share : ℚ}
    (different : first.start ≠ first.stop)
    (stops : first.pointAt share = ⟨second.stop.x, second.stop.y⟩) :
    0 < (first.start.x - first.stop.x) * (second.stop.x - first.stop.x) +
        (first.start.y - first.stop.y) * (second.stop.y - first.stop.y) ↔
      share < 1 := by
  rw [pointAt, Point.mk.injEq] at stops
  have product : (((first.start.x - first.stop.x) * (second.stop.x - first.stop.x) +
      (first.start.y - first.stop.y) * (second.stop.y - first.stop.y) : Int) : ℚ) =
        (1 - share) * first.square := by
    push_cast
    rw [← stops.1, ← stops.2, square]
    ring
  rw [← Int.cast_pos (R := ℚ), product, mul_pos_iff_of_pos_right (square_pos different),
    sub_pos]

/-- An edge folds into the next one exactly if their corner is not the only point that they
have in common. -/
theorem foldsInto_iff (corner : first.stop = second.start) :
    first.foldsInto second = true ↔
      ∃ point, first.Contains point ∧ second.Contains point ∧
        point ≠ ⟨first.stop.x, first.stop.y⟩ := by
  have last : first.pointAt 1 = ⟨first.stop.x, first.stop.y⟩ := by simp [pointAt]
  have starts : first.pointAt 1 = ⟨second.start.x, second.start.y⟩ := corner ▸ last
  simp only [foldsInto, Bool.and_eq_true, beq_iff_eq, decide_eq_true_eq, ← last]
  constructor
  · rintro ⟨straight, back⟩
    have different : first.start ≠ first.stop := by
      intro equal
      simp [equal] at back
    obtain ⟨share, stops⟩ := exists_pointAt different straight
    have before := (runsBack_iff different stops).mp back
    rcases le_or_gt 0 share with inside | outside
    · exact ⟨first.pointAt share, ⟨share, inside, before.le, rfl⟩, stops ▸ second.contains_stop,
        fun same => before.ne (pointAt_injective different same)⟩
    · -- The second edge runs back beyond the start of the first one.
      obtain ⟨otherShare, above, below, zero⟩ :=
        exists_zero_mixture (by linarith) (Or.inr ⟨outside.le, zero_le_one⟩)
      refine ⟨first.pointAt 0, ⟨0, le_refl 0, zero_le_one, rfl⟩,
        ⟨otherShare, above, below, ?_⟩, fun same => ?_⟩
      · rw [pointAt_mixture starts stops, zero]
      · exact zero_ne_one (pointAt_injective different same)
  · rintro ⟨point, ⟨share, above, below, rfl⟩, ⟨otherShare, otherAbove, otherBelow, same⟩,
      apart⟩
    have different : first.start ≠ first.stop := by
      intro equal
      apply apart
      simp only [pointAt, equal, Point.mk.injEq]
      constructor <;> ring
    have moved : otherShare ≠ 0 := by
      rintro rfl
      apply apart
      rw [starts, ← same]
      simp [pointAt]
    have straight : turning first.start first.stop second.stop = 0 := by
      have ends := turning_mixture same.symm
      rw [← corner, show turning first.start first.stop first.stop = 0 by
        simp only [turning]; ring, Int.cast_zero, mul_zero, zero_add] at ends
      exact Int.cast_eq_zero.mp ((mul_eq_zero.mp ends).resolve_left moved)
    obtain ⟨stopShare, stops⟩ := exists_pointAt different straight
    have mixed : (1 - otherShare) * 1 + otherShare * stopShare = share :=
      pointAt_injective different ((pointAt_mixture starts stops otherShare).symm.trans same)
    have before : share < 1 := by
      refine lt_of_le_of_ne below ?_
      rintro rfl
      exact apart rfl
    refine ⟨straight, (runsBack_iff different stops).mpr (lt_of_not_ge fun beyond => ?_)⟩
    have further := mul_nonneg otherAbove (sub_nonneg.mpr beyond)
    linarith

/-! ## Neighbours and others -/

/-- Edges that have no point in common. -/
def IsApart (first second : Edge) : Prop :=
  ∀ point, first.Contains point → ¬ second.Contains point

/-- An edge that starts where another one stops, and has only this point in common with
it. -/
def Continues (second first : Edge) : Prop :=
  first.stop = second.start ∧
    ∀ point, first.Contains point → second.Contains point →
      point = ⟨first.stop.x, first.stop.y⟩

theorem IsApart.meets (apart : first.IsApart second) : first.meets second = false := by
  rw [← Bool.not_eq_true, meets_iff]
  rintro ⟨point, onFirst, onSecond⟩
  exact apart point onFirst onSecond

theorem Continues.foldsInto (continues : second.Continues first) :
    first.foldsInto second = false := by
  rw [← Bool.not_eq_true, foldsInto_iff continues.1]
  rintro ⟨point, onFirst, onSecond, different⟩
  exact different (continues.2 point onFirst onSecond)

end Edge
end Ring
end Joinery
