import Joinery.Proofs.Binary64.Alike
import Joinery.Proofs.Binary64.Magnitude

/-!
# Numbers on one side of zero

Sums of numbers on one side of zero stay there, and products and quotients are on the side
that the signs of their operands give. Results are at least one half of what they would be
without rounding, so that a product does not vanish when its factors are large enough.
-/

namespace Joinery
namespace Binary64

/-- A number on a side of zero that has at least so many units. A zero is on both sides. -/
def IsFrom (negative : Bool) (least : Nat) : Binary64 → Prop
  | .finite sign units _ => (sign = negative ∨ units = 0) ∧ least ≤ units
  | .infinite sign => sign = negative
  | .nan => False

section Sides

variable {negative : Bool} {least : Nat} {value : Binary64}

/-- The only number on a side that is not finite is the infinity of this side. -/
theorem IsFrom.eq_infinite
    (isFrom : IsFrom negative least value)
    (endless : value.isFinite = false) :
    value = .infinite negative := by
  cases value with
  | nan => exact isFrom.elim
  | infinite sign => rw [show sign = negative from isFrom]
  | finite sign units fits => cases endless

theorem isFrom_zero (negative : Bool) : IsFrom negative 0 0 := by
  rw [zero_eq]
  exact ⟨Or.inr rfl, Nat.le_refl 0⟩

theorem IsFrom.neg (isFrom : IsFrom negative least value) :
    IsFrom (!negative) least (-value) := by
  cases value with
  | nan => exact isFrom
  | infinite sign => exact congrArg (! ·) isFrom
  | finite sign units fits => exact ⟨isFrom.1.imp_left (congrArg (! ·)), isFrom.2⟩

theorem IsFrom.abs (isFrom : IsFrom negative least value) : IsFrom false least value.abs := by
  cases value with
  | nan => exact isFrom
  | infinite sign => rfl
  | finite sign units fits => exact ⟨Or.inl rfl, isFrom.2⟩

/-- A quotient rounds to one half of itself at the least. -/
theorem isFrom_ofQuotient
    {sign : Bool}
    {numerator denominator : Nat}
    (side : sign = negative ∨ numerator = 0)
    (positive : 0 < denominator)
    (large : 2 * least * denominator ≤ numerator) :
    IsFrom negative least (ofQuotient sign numerator denominator) := by
  have quotient : 2 * least ≤ numerator / denominator :=
    (Nat.le_div_iff_mul_le positive).mpr large
  rcases side with rfl | rfl
  · have rounded := le_two_mul_roundedUnits numerator denominator
    unfold ofQuotient
    split
    · exact ⟨Or.inl rfl, by omega⟩
    · rfl
  · rw [ofQuotient_zero]
    rw [Nat.zero_div] at quotient
    exact ⟨Or.inr rfl, by omega⟩

theorem isFrom_ofNat {number : Nat} (large : 2 ≤ number) :
    IsFrom false 1 (OfNat.ofNat number : Binary64) :=
  isFrom_ofQuotient (Or.inl rfl) Nat.one_pos (Nat.mul_le_mul large one_pos)

theorem isFrom_half : IsFrom false 0 half :=
  isFrom_ofQuotient (Or.inl rfl) (by decide) (by simp)

/-- The sign of a zero does not count. -/
theorem signedUnits_of_side
    {sign : Bool}
    {units : Nat}
    (side : sign = negative ∨ units = 0) :
    signedUnits sign units = signedUnits negative units := by
  rcases side with rfl | rfl
  · rfl
  · rw [signedUnits_zero, signedUnits_zero]

/-- Sums of units on one side. -/
theorem signedUnits_add (negative : Bool) (first second : Nat) :
    signedUnits negative first + signedUnits negative second =
      signedUnits negative (first + second) := by
  cases negative with
  | false => rfl
  | true =>
      simp only [signedUnits, if_true]
      omega

end Sides

section Operations

variable {leftSign rightSign negative : Bool} {first second least bound : Nat}
  {left right : Binary64}

theorem IsFrom.add
    (leftFrom : IsFrom negative first left)
    (rightFrom : IsFrom negative second right)
    (enough : 2 * least ≤ first + second) :
    IsFrom negative least (left + right) := by
  change IsFrom negative least (Binary64.add left right)
  cases left with
  | nan => exact leftFrom.elim
  | infinite leftNegative =>
      obtain rfl : leftNegative = negative := leftFrom
      cases right with
      | nan => exact rightFrom.elim
      | infinite rightNegative =>
          obtain rfl : rightNegative = leftNegative := rightFrom
          simp [Binary64.add, IsFrom]
      | finite rightNegative rightUnits rightFits => rfl
  | finite leftNegative leftUnits leftFits =>
      obtain ⟨leftSide, leftLarge⟩ := leftFrom
      cases right with
      | nan => exact rightFrom.elim
      | infinite rightNegative => exact rightFrom
      | finite rightNegative rightUnits rightFits =>
          obtain ⟨rightSide, rightLarge⟩ := rightFrom
          simp only [Binary64.add, signedUnits_of_side leftSide, signedUnits_of_side rightSide,
            signedUnits_add]
          split
          next zero =>
            have magnitude := natAbs_signedUnits negative (leftUnits + rightUnits)
            exact ⟨Or.inr rfl, by omega⟩
          next =>
            have sign : decide (signedUnits negative (leftUnits + rightUnits) < 0) =
                negative := by
              cases negative <;> simp [signedUnits] at * <;> omega
            rw [sign, natAbs_signedUnits]
            exact isFrom_ofQuotient (Or.inl rfl) Nat.one_pos (by omega)

theorem IsFrom.sub
    (leftFrom : IsFrom negative first left)
    (rightFrom : IsFrom (!negative) second right)
    (enough : 2 * least ≤ first + second) :
    IsFrom negative least (left - right) := by
  have opposite := rightFrom.neg
  rw [Bool.not_not] at opposite
  exact leftFrom.add opposite enough

/-- A product with a finite number, which is not zero if the other one is infinite. -/
theorem IsFrom.mul
    (leftFrom : IsFrom leftSign first left)
    (rightFrom : IsFrom rightSign second right)
    (finite : right.isFinite = true)
    (defined : left.isFinite = true ∨ 0 < second)
    (enough : 2 * least * one ≤ first * second) :
    IsFrom (leftSign != rightSign) least (left * right) := by
  change IsFrom _ least (Binary64.mul left right)
  cases right with
  | nan => exact rightFrom.elim
  | infinite rightNegative => cases finite
  | finite rightNegative rightUnits rightFits =>
      obtain ⟨rightSide, rightLarge⟩ := rightFrom
      cases left with
      | nan => exact leftFrom.elim
      | infinite leftNegative =>
          obtain rfl : leftNegative = leftSign := leftFrom
          have nonzero : rightUnits ≠ 0 := by
            have positive := defined.resolve_left (by simp [isFinite])
            omega
          simp only [Binary64.mul, if_neg nonzero]
          exact congrArg _ (rightSide.resolve_right nonzero)
      | finite leftNegative leftUnits leftFits =>
          obtain ⟨leftSide, leftLarge⟩ := leftFrom
          have side : (leftNegative != rightNegative) = (leftSign != rightSign) ∨
              leftUnits * rightUnits = 0 := by
            rcases leftSide with rfl | rfl
            · exact rightSide.imp (congrArg _) (by rintro rfl; exact Nat.mul_zero _)
            · exact Or.inr (Nat.zero_mul _)
          exact isFrom_ofQuotient side one_pos
            (Nat.le_trans enough (Nat.mul_le_mul leftLarge rightLarge))

theorem IsFrom.div
    (leftFrom : IsFrom negative first left)
    (rightFrom : IsFrom false 1 right)
    (within : Within bound right)
    (enough : 2 * least * bound ≤ first) :
    IsFrom negative least (left / right) := by
  change IsFrom negative least (Binary64.div left right)
  cases right with
  | nan => exact rightFrom.elim
  | infinite rightNegative => exact within.elim
  | finite rightNegative rightUnits rightFits =>
      obtain ⟨rightSide, rightLarge⟩ := rightFrom
      have nonzero : rightUnits ≠ 0 := by omega
      obtain rfl := rightSide.resolve_right nonzero
      cases left with
      | nan => exact leftFrom.elim
      | infinite leftNegative =>
          simp only [Binary64.div, Bool.bne_false]
          exact leftFrom
      | finite leftNegative leftUnits leftFits =>
          obtain ⟨leftSide, leftLarge⟩ := leftFrom
          simp only [Binary64.div, if_neg nonzero, Bool.bne_false]
          have large : 2 * least * rightUnits ≤ leftUnits * one :=
            calc
              _ ≤ 2 * least * (bound * one) := Nat.mul_le_mul_left _ within
              _ = 2 * least * bound * one := (Nat.mul_assoc _ _ _).symm
              _ ≤ leftUnits * one := Nat.mul_le_mul_right one (Nat.le_trans enough leftLarge)
          exact isFrom_ofQuotient (leftSide.imp_right (by rintro rfl; exact Nat.zero_mul _))
            (by omega) large

theorem isFrom_hypot
    (leftFinite : left.isFinite = true)
    (rightFinite : right.isFinite = true) :
    IsFrom false 0 (left.hypot right) := by
  cases left with
  | nan => cases leftFinite
  | infinite negative => cases leftFinite
  | finite leftNegative leftUnits leftFits =>
      cases right with
      | nan => cases rightFinite
      | infinite negative => cases rightFinite
      | finite rightNegative rightUnits rightFits =>
          exact isFrom_ofQuotient (Or.inl rfl) (by decide) (by simp)

end Operations

/-! ## Positive numbers -/

section Positive

variable {value : Binary64}

/-- A number that is not zero and has no minus sign is positive. -/
theorem IsFrom.not_le_zero {least : Nat} (isFrom : IsFrom false (least + 1) value) :
    ¬ value ≤ 0 := by
  rw [zero_eq]
  change ¬ (less value _ || equal value _) = true
  cases value with
  | nan => exact isFrom.elim
  | infinite sign =>
      obtain rfl : sign = false := isFrom
      simp [less, equal]
  | finite sign units fits =>
      obtain ⟨side, large⟩ := isFrom
      obtain rfl := side.resolve_right (by omega)
      simp [less, equal, signedUnits]
      omega

/-- A number on the side of the minus sign is not positive. -/
theorem IsFrom.not_zero_lt {least : Nat} (isFrom : IsFrom true least value) : ¬ 0 < value := by
  rw [zero_eq]
  change ¬ less _ value = true
  cases value with
  | nan => exact isFrom.elim
  | infinite sign =>
      obtain rfl : sign = true := isFrom
      simp [less]
  | finite sign units fits =>
      rcases isFrom.1 with rfl | rfl
      · simp [less, signedUnits]
      · simp [less, signedUnits]

/-- The order of finite numbers around zero. -/
theorem zero_lt_iff_not_le_zero (finite : value.isFinite = true) : 0 < value ↔ ¬ value ≤ 0 := by
  rw [zero_eq]
  change less _ value = true ↔ ¬ (less value _ || equal value _) = true
  cases value with
  | nan => cases finite
  | infinite sign => cases finite
  | finite sign units fits =>
      simp [less, equal, signedUnits_zero]
      omega

theorem zero_lt_finite_iff {sign : Bool} {units : Nat} {fits : Fits units} :
    (0 : Binary64) < .finite sign units fits ↔ 0 < signedUnits sign units := by
  rw [zero_eq]
  change less _ _ = true ↔ _
  simp [less, signedUnits_zero]

end Positive

/-! ## Positive thousandths -/

/-- A number of units between an eighth of a thousandth and a fourth of it. -/
def grain : Nat := 2 ^ (unitPlaces - 13)

theorem one_eq : one = 8192 * grain := by
  have split : unitPlaces = 13 + (unitPlaces - 13) := by
    unfold unitPlaces
    rfl
  rw [one, grain, split, Nat.add_sub_cancel_left, Nat.pow_add]

theorem two_pow_sixty_four_le_grain : 2 ^ 64 ≤ grain :=
  Nat.pow_le_pow_right (by decide) (by unfold unitPlaces; decide)

/-- A number that was rounded to thousandths. -/
def IsRounded (rounded : Binary64) : Prop :=
  ∃ value, roundThousandths value = .ok rounded

theorem IsRounded.within {rounded : Binary64} (isRounded : IsRounded rounded) :
    Within (5 * scale) rounded := by
  obtain ⟨value, found⟩ := isRounded
  exact within_roundThousandths found

/-- A positive number that was rounded to thousandths is far from zero. -/
theorem IsRounded.isFrom
    {rounded : Binary64}
    (isRounded : IsRounded rounded)
    (positive : 0 < rounded) :
    IsFrom false (2 * grain) rounded := by
  obtain ⟨value, found⟩ := isRounded
  unfold roundThousandths at found
  split at found
  next thousandths _ =>
    obtain rfl := Except.ok.inj found
    unfold ofIntQuotient at positive ⊢
    have above : 0 < thousandths := by
      by_contra below
      have side : IsFrom true 0
          (ofQuotient (decide (thousandths < 0)) (thousandths.natAbs * one) 1000) :=
        isFrom_ofQuotient (by
          rcases Int.lt_or_eq_of_le (Int.not_lt.mp below) with negative | rfl
          · exact Or.inl (decide_eq_true negative)
          · exact Or.inr (Nat.zero_mul one)) (by decide) (by simp)
      exact side.not_zero_lt positive
    rw [decide_eq_false (Int.not_lt.mpr (Int.le_of_lt above))]
    refine isFrom_ofQuotient (Or.inl rfl) (by decide) ?_
    calc
      2 * (2 * grain) * 1000 = 4000 * grain := by ring
      _ ≤ 8192 * grain := Nat.mul_le_mul_right grain (by decide)
      _ = one := one_eq.symm
      _ ≤ thousandths.natAbs * one := Nat.le_mul_of_pos_left one (by omega)
  next => cases found

theorem within_zero (bound : Nat) : Within bound 0 := by
  rw [zero_eq]
  exact Nat.zero_le _

/-- Differences of numbers within the bound of rounded ones are finite. -/
theorem isFinite_sub
    {left right : Binary64}
    (leftWithin : Within (5 * scale) left)
    (rightWithin : Within (5 * scale) right) :
    (left - right).isFinite = true := by
  have room : 2 * (5 * scale + 5 * scale) + 1 < 2 ^ wholePlaces := by
    have large := two_pow_sixty_four_le_scale
    rw [two_pow_wholePlaces]
    omega
  exact (leftWithin.sub rightWithin room).isFinite

/-- The thousandfold of a distance and one half, if that is too large to be finite. -/
theorem thousandfold_eq_infinite
    {x y : Binary64}
    (xFinite : x.isFinite = true)
    (yFinite : y.isFinite = true)
    (endless : (x.hypot y * 1000 + half).isFinite = false) :
    x.hypot y * 1000 + half = .infinite false := by
  have thousand : Within (2 * 1000 + 1) (1000 : Binary64) :=
    within_ofNat 1000 (by
      have room := two_pow_sixty_four_le_scale
      rw [two_pow_wholePlaces]
      omega)
  have product : IsFrom false 0 (x.hypot y * 1000) :=
    (isFrom_hypot xFinite yFinite).mul (isFrom_ofNat (by decide)) thousand.isFinite
      (Or.inr Nat.one_pos) (by simp)
  have sum : IsFrom false 0 (x.hypot y * 1000 + half) := product.add isFrom_half (by simp)
  exact sum.eq_infinite endless

end Binary64
end Joinery
