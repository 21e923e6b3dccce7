import Joinery.Binary64.Root
import Joinery.Binary64.Thousandth
import Mathlib.Tactic.Linarith
import Mathlib.Tactic.Ring

/-!
# Magnitudes of computed numbers

Rounding at most doubles a number and never more than halves it. So the magnitude of
a result has a bound that follows from the bounds of the operands, and a result whose
bound is far enough below the limit is finite. `within_roundThousandths` bounds every
number that was rounded to thousandths: distances between such numbers are finite.
-/

namespace Joinery
namespace Binary64

/-! ## Rounded counts of units -/

theorem div_le_nearest (numerator denominator : Nat) :
    numerator / denominator ≤ nearest numerator denominator := by
  unfold nearest
  grind

theorem spacing_le {units : Nat} (positive : 0 < units) : spacing units ≤ units := by
  have known := precision_pos
  calc
    spacing units ≤ 2 ^ units.log2 := Nat.pow_le_pow_right (by decide) (by omega)
    _ ≤ units := Nat.log2_self_le (by omega)

theorem spacing_zero : spacing 0 = 1 := by
  simp [spacing, precision]

/-- Rounding at most doubles a count of units, up to a single unit. -/
theorem roundedUnits_le (numerator denominator : Nat) :
    roundedUnits numerator denominator ≤ 2 * (numerator / denominator) + 1 := by
  dsimp only [roundedUnits]
  have above := nearest_le numerator (denominator * spacing (numerator / denominator))
  rw [← Nat.div_div_eq_div_mul] at above
  generalize numerator / denominator = units at above ⊢
  have whole := Nat.div_mul_le_self units (spacing units)
  have step : spacing units ≤ units + 1 := by
    rcases Nat.eq_zero_or_pos units with rfl | positive
    · rw [spacing_zero]
    · exact Nat.le_succ_of_le (spacing_le positive)
  calc
    _ ≤ (units / spacing units + 1) * spacing units := Nat.mul_le_mul_right _ above
    _ = units / spacing units * spacing units + spacing units := by ring
    _ ≤ 2 * units + 1 := by omega

/-- Rounding keeps at least one half of a count of units. -/
theorem le_two_mul_roundedUnits (numerator denominator : Nat) :
    numerator / denominator ≤ 2 * roundedUnits numerator denominator := by
  dsimp only [roundedUnits]
  have below := div_le_nearest numerator (denominator * spacing (numerator / denominator))
  rw [← Nat.div_div_eq_div_mul] at below
  generalize numerator / denominator = units at below ⊢
  rcases Nat.eq_zero_or_pos units with rfl | positive
  · exact Nat.zero_le _
  have kept := Nat.mul_le_mul_right (spacing units) below
  have split := Nat.div_add_mod' units (spacing units)
  have rest := Nat.mod_lt units (spacing_pos units)
  have once : spacing units ≤ units / spacing units * spacing units :=
    Nat.le_mul_of_pos_left _ (Nat.div_pos (spacing_le positive) (spacing_pos units))
  omega

/-! ## Bounded numbers -/

/-- A finite number whose magnitude is at most a natural number. -/
def Within (bound : Nat) : Binary64 → Prop
  | .finite _ units _ => units ≤ bound * one
  | _ => False

theorem Within.isFinite
    {bound : Nat}
    {value : Binary64}
    (within : Within bound value) :
    value.isFinite = true := by
  cases value with
  | nan => exact within.elim
  | infinite negative => exact within.elim
  | finite negative units fits => rfl

/-- A larger allowance keeps a bound. -/
theorem Within.mono
    {smaller larger : Nat}
    {value : Binary64}
    (within : Within smaller value)
    (le : smaller ≤ larger) :
    Within larger value := by
  cases value with
  | nan => exact within
  | infinite negative => exact within
  | finite negative units fits =>
      exact Nat.le_trans within (Nat.mul_le_mul_right one le)

theorem limit_eq : limit = 2 ^ wholePlaces * one := by
  rw [limit, one, Nat.pow_add, Nat.mul_comm]

/-- A quotient that is small enough rounds to a finite number. -/
theorem within_ofQuotient
    {bound numerator denominator : Nat}
    (negative : Bool)
    (small : numerator ≤ bound * one * denominator)
    (room : 2 * bound + 1 < 2 ^ wholePlaces) :
    Within (2 * bound + 1) (ofQuotient negative numerator denominator) := by
  have positive := one_pos
  have quotient : numerator / denominator ≤ bound * one :=
    Nat.div_le_of_le_mul (by rwa [Nat.mul_comm])
  have rounded : roundedUnits numerator denominator ≤ (2 * bound + 1) * one := by
    have doubled := roundedUnits_le numerator denominator
    have unfolded : (2 * bound + 1) * one = 2 * (bound * one) + one := by ring
    omega
  have below : roundedUnits numerator denominator < limit := by
    rw [limit_eq]
    exact Nat.lt_of_le_of_lt rounded (Nat.mul_lt_mul_of_pos_right room positive)
  rw [ofQuotient, dif_pos below]
  exact rounded

section Operations

variable {first second : Nat} {left right : Binary64}

theorem Within.neg (within : Within first left) : Within first (-left) := by
  cases left with
  | nan => exact within
  | infinite negative => exact within
  | finite negative units fits => exact within

theorem natAbs_signedUnits (negative : Bool) (units : Nat) :
    (signedUnits negative units).natAbs = units := by
  cases negative <;> simp [signedUnits]

theorem Within.add
    (leftWithin : Within first left)
    (rightWithin : Within second right)
    (room : 2 * (first + second) + 1 < 2 ^ wholePlaces) :
    Within (2 * (first + second) + 1) (left + right) := by
  cases left with
  | nan => exact leftWithin.elim
  | infinite negative => exact leftWithin.elim
  | finite leftNegative leftUnits leftFits =>
      cases right with
      | nan => exact rightWithin.elim
      | infinite negative => exact rightWithin.elim
      | finite rightNegative rightUnits rightFits =>
          change Within _ (add _ _)
          simp only [Within] at leftWithin rightWithin
          simp only [add]
          split
          · exact Nat.zero_le _
          · refine within_ofQuotient _ ?_ room
            have triangle := Int.natAbs_add_le
              (signedUnits leftNegative leftUnits) (signedUnits rightNegative rightUnits)
            rw [natAbs_signedUnits, natAbs_signedUnits] at triangle
            rw [Nat.add_mul, Nat.mul_one]
            omega

theorem Within.sub
    (leftWithin : Within first left)
    (rightWithin : Within second right)
    (room : 2 * (first + second) + 1 < 2 ^ wholePlaces) :
    Within (2 * (first + second) + 1) (left - right) :=
  leftWithin.add rightWithin.neg room

theorem Within.mul
    (leftWithin : Within first left)
    (rightWithin : Within second right)
    (room : 2 * (first * second) + 1 < 2 ^ wholePlaces) :
    Within (2 * (first * second) + 1) (left * right) := by
  cases left with
  | nan => exact leftWithin.elim
  | infinite negative => exact leftWithin.elim
  | finite leftNegative leftUnits leftFits =>
      cases right with
      | nan => exact rightWithin.elim
      | infinite negative => exact rightWithin.elim
      | finite rightNegative rightUnits rightFits =>
          refine within_ofQuotient _ ?_ room
          calc
            leftUnits * rightUnits ≤ (first * one) * (second * one) :=
              Nat.mul_le_mul leftWithin rightWithin
            _ = first * second * one * one := by ring

/-- A number that is at least one. -/
def IsAtLeastOne : Binary64 → Prop
  | .finite _ units _ => one ≤ units
  | _ => False

theorem Within.div
    (within : Within first left)
    (large : IsAtLeastOne right)
    (room : 2 * first + 1 < 2 ^ wholePlaces) :
    Within (2 * first + 1) (left / right) := by
  cases left with
  | nan => exact within.elim
  | infinite negative => exact within.elim
  | finite leftNegative leftUnits leftFits =>
      cases right with
      | nan => exact large.elim
      | infinite negative => exact large.elim
      | finite rightNegative rightUnits rightFits =>
          change Within _ (div _ _)
          have nonzero : rightUnits ≠ 0 :=
            Nat.pos_iff_ne_zero.mp (Nat.lt_of_lt_of_le one_pos large)
          simp only [div, nonzero, if_false]
          exact within_ofQuotient _ (Nat.mul_le_mul within large) room

/-- The length of a vector is at most the sum of its components. -/
theorem Within.hypot
    (leftWithin : Within first left)
    (rightWithin : Within second right)
    (room : 2 * (first + second + 1) + 1 < 2 ^ wholePlaces) :
    Within (2 * (first + second + 1) + 1) (left.hypot right) := by
  cases left with
  | nan => exact leftWithin.elim
  | infinite negative => exact leftWithin.elim
  | finite leftNegative leftUnits leftFits =>
      cases right with
      | nan => exact rightWithin.elim
      | infinite negative => exact rightWithin.elim
      | finite rightNegative rightUnits rightFits =>
          refine within_ofQuotient _ ?_ room
          have root : Nat.sqrt (4 * (leftUnits * leftUnits + rightUnits * rightUnits)) ≤
              2 * (leftUnits + rightUnits) := by
            calc
              _ ≤ Nat.sqrt (2 * (leftUnits + rightUnits) * (2 * (leftUnits + rightUnits))) :=
                Nat.sqrt_le_sqrt (by nlinarith)
              _ = 2 * (leftUnits + rightUnits) := Nat.sqrt_eq _
          have positive := one_pos
          simp only [Within] at leftWithin rightWithin
          have unfolded : (first + second + 1) * one * 4 =
              4 * (first * one) + 4 * (second * one) + 4 * one := by ring
          split <;> omega

end Operations

theorem within_ofNat (number : Nat) (room : 2 * number + 1 < 2 ^ wholePlaces) :
    Within (2 * number + 1) (OfNat.ofNat number : Binary64) :=
  within_ofQuotient _ (by rw [Nat.mul_one]) room

/-! ## Numbers rounded to thousandths -/

theorem wholePlaces_eq : wholePlaces = 1024 := by
  unfold wholePlaces
  rfl

/-- A magnitude far below the limit of finite numbers. -/
def scale : Nat := 2 ^ (wholePlaces - 10)

theorem two_pow_wholePlaces : 2 ^ wholePlaces = 1024 * scale := by
  have split : wholePlaces = 10 + (wholePlaces - 10) := by
    have known := wholePlaces_eq
    omega
  rw [scale, split, Nat.add_sub_cancel_left, Nat.pow_add]

theorem two_pow_sixty_four_le_scale : 2 ^ 64 ≤ scale :=
  Nat.pow_le_pow_right (by decide) (by
    have known := wholePlaces_eq
    omega)

theorem within_half : Within 3 half :=
  @within_ofQuotient 1 _ _ _ (by omega) (by
    have room := two_pow_sixty_four_le_scale
    rw [two_pow_wholePlaces]
    omega)

/-- The floor of a number has a magnitude of at most the limit. -/
theorem natAbs_le_of_floor?
    {value : Binary64}
    {floor : Int}
    (found : value.floor? = some floor) :
    floor.natAbs ≤ 2 ^ wholePlaces := by
  cases value with
  | nan => simp [floor?] at found
  | infinite negative => simp [floor?] at found
  | finite negative units fits =>
      have positive : (0 : Int) < one := Int.natCast_pos.2 one_pos
      have below : units < 2 ^ wholePlaces * one := limit_eq ▸ fits.1
      have magnitude := natAbs_signedUnits negative units
      simp only [floor?, Option.some.injEq] at found
      rw [Int.fdiv_eq_ediv_of_nonneg _ (Int.le_of_lt positive)] at found
      have bounds : -((2 ^ wholePlaces * one : Nat) : Int) ≤ signedUnits negative units ∧
          signedUnits negative units < ((2 ^ wholePlaces * one : Nat) : Int) := by
        omega
      rw [Int.natCast_mul] at bounds
      have lower : -((2 ^ wholePlaces : Nat) : Int) ≤ floor := by
        rw [← found]
        exact Int.le_ediv_of_mul_le positive (by rw [Int.neg_mul]; exact bounds.1)
      have upper : floor < ((2 ^ wholePlaces : Nat) : Int) := by
        rw [← found]
        exact Int.ediv_lt_of_lt_mul positive bounds.2
      omega

/-- A number rounded to thousandths is finite, with room for sums and distances. -/
theorem within_roundThousandths
    {value rounded : Binary64}
    (found : value.roundThousandths = .ok rounded) :
    Within (5 * scale) rounded := by
  unfold roundThousandths at found
  split at found
  next thousandths floor =>
    have large := two_pow_sixty_four_le_scale
    have bounded := natAbs_le_of_floor? floor
    rw [two_pow_wholePlaces] at bounded
    have small : thousandths.natAbs * one ≤ 2 * scale * one * 1000 := by
      have scaled := Nat.mul_le_mul_right one bounded
      nlinarith
    have within : Within (2 * (2 * scale) + 1) (ofIntQuotient thousandths 1000) :=
      within_ofQuotient _ small (by rw [two_pow_wholePlaces]; omega)
    rw [Except.ok.inj found] at within
    exact within.mono (by omega)
  next => cases found

/-- Rounding to thousandths fails exactly when the thousandfold is not finite. -/
theorem roundThousandths_isOk_iff (value : Binary64) :
    (∃ rounded, value.roundThousandths = .ok rounded) ↔
      (value * 1000 + half).isFinite = true := by
  unfold roundThousandths
  generalize value * 1000 + half = thousandfold
  cases thousandfold <;> simp [floor?, isFinite]

/-- The distance between two points with coordinates that were rounded to
thousandths is finite, and so is its rounding to an integer. -/
theorem floor?_distance_isSome
    {x1 y1 x2 y2 : Binary64}
    (x1Within : Within (5 * scale) x1)
    (y1Within : Within (5 * scale) y1)
    (x2Within : Within (5 * scale) x2)
    (y2Within : Within (5 * scale) y2) :
    (((x2 - x1).hypot (y2 - y1) + half).floor?).isSome = true := by
  have large := two_pow_sixty_four_le_scale
  have limit := two_pow_wholePlaces
  have run := x2Within.sub x1Within (by omega)
  have rise := y2Within.sub y1Within (by omega)
  have length := run.hypot rise (by omega)
  have shifted := (length.add within_half (by omega)).isFinite
  revert shifted
  cases (x2 - x1).hypot (y2 - y1) + half <;> simp [floor?, isFinite]

end Binary64
end Joinery
