import Joinery.Binary64.Angle
import Joinery.Proofs.Binary64.Magnitude

/-!
# Angles of boards

The angle between two points with finite coordinates is a finite number of degrees,
small enough that turning it back to radians gives a finite number again. The terms
of the arctangent series do not grow, so their sum is at most their number times the
first of them, and the circle constant is at least twice as large as one half.
-/

namespace Joinery
namespace Binary64

/-! ## The arctangent series -/

/-- The terms of the series do not grow. -/
theorem arctangentTerms_le
    (places square count index term sum : Nat)
    (small : square ≤ 2 ^ places) :
    arctangentTerms places square count index term sum ≤ sum + count * term := by
  induction count generalizing index term sum with
  | zero => simp [arctangentTerms]
  | succ count inductionHypothesis =>
      rw [arctangentTerms]
      split
      · omega
      · have shrunk : ((term * square) >>> places) * (2 * index) / (2 * index + 1) ≤ term := by
          have kept : (term * square) >>> places ≤ term := by
            rw [Nat.shiftRight_eq_div_pow]
            exact Nat.div_le_of_le_mul
              (by rw [Nat.mul_comm (2 ^ places)]; exact Nat.mul_le_mul_left term small)
          refine Nat.div_le_of_le_mul ?_
          calc
            _ ≤ term * (2 * index) := Nat.mul_le_mul_right _ kept
            _ ≤ (2 * index + 1) * term := by nlinarith
        calc
          _ ≤ sum + term + count * _ := inductionHypothesis _ _ _
          _ ≤ sum + term + count * term :=
            Nat.add_le_add_left (Nat.mul_le_mul_left count shrunk) _
          _ = sum + (count + 1) * term := by ring

/-- The sum never falls below what it has reached. -/
theorem le_arctangentTerms (places square count index term sum : Nat) :
    sum ≤ arctangentTerms places square count index term sum := by
  induction count generalizing index term sum with
  | zero => exact Nat.le_refl sum
  | succ count inductionHypothesis =>
      rw [arctangentTerms]
      split
      · exact Nat.le_refl sum
      · exact Nat.le_trans (Nat.le_add_right sum term) (inductionHypothesis _ _ _)

/-- The product of two numbers is at most the sum of their squares. -/
theorem mul_le_add_squares (first second : Nat) :
    first * second ≤ second * second + first * first := by
  rcases Nat.le_total first second with le | le
  · exact Nat.le_add_right_of_le (Nat.mul_le_mul_right second le)
  · exact Nat.le_add_left_of_le (Nat.mul_le_mul_left first le)

/-- An arctangent is at most as large as the series has terms. -/
theorem arctangent_le (places tangent : Nat) :
    arctangent places tangent ≤ (places + 64) * 2 ^ places := by
  dsimp only [arctangent]
  generalize unitEquality : 2 ^ places = unit
  generalize secantEquality : unit * unit + tangent * tangent = secant
  have squareSmall : tangent * tangent * unit / secant ≤ 2 ^ places := by
    refine Nat.div_le_of_le_mul ?_
    rw [unitEquality]
    exact Nat.mul_le_mul_right unit (by omega)
  have termSmall : tangent * unit * unit / secant ≤ unit := by
    refine Nat.div_le_of_le_mul (Nat.mul_le_mul_right unit ?_)
    rw [← secantEquality]
    exact mul_le_add_squares tangent unit
  calc
    _ ≤ 0 + (places + 64) * (tangent * unit * unit / secant) :=
      arctangentTerms_le _ _ _ _ _ _ squareSmall
    _ ≤ (places + 64) * unit := by
      rw [Nat.zero_add]
      exact Nat.mul_le_mul_left _ termSmall

/-- The arctangent of one is at least one half. -/
theorem half_le_arctangent (places : Nat) :
    2 ^ places / 2 ≤ arctangent places (2 ^ places) := by
  have positive := Nat.two_pow_pos places
  dsimp only [arctangent]
  generalize 2 ^ places = unit at positive ⊢
  have term : unit * unit * unit / (unit * unit + unit * unit) = unit / 2 := by
    rw [← Nat.mul_two]
    exact Nat.mul_div_mul_left unit 2 (Nat.mul_pos positive positive)
  rw [term, arctangentTerms]
  split
  · omega
  · exact Nat.le_trans (Nat.le_add_left _ 0) (le_arctangentTerms _ _ _ _ _ _)

/-! ## The circle constant -/

theorem turnPlaces_eq : turnPlaces = 2600 := by
  unfold turnPlaces
  rfl

theorem anglePlaces_eq : anglePlaces = 1400 := by
  unfold anglePlaces
  rfl

/-- A bound in whole numbers for all angles in radians. -/
def turnBound : Nat := 4 * (turnPlaces + 64)

theorem turnBound_eq : turnBound = 10656 := by
  rw [turnBound, turnPlaces_eq]

theorem two_pow_turnPlaces :
    2 ^ turnPlaces = 2 ^ anglePlaces * 2 ^ (turnPlaces - anglePlaces) := by
  have order : anglePlaces + (turnPlaces - anglePlaces) = turnPlaces := by
    have turn := turnPlaces_eq
    have angle := anglePlaces_eq
    omega
  rw [← Nat.pow_add, order]

theorem shortHalfTurn_le : shortHalfTurn ≤ turnBound * 2 ^ anglePlaces := by
  rw [shortHalfTurn, halfTurn, Nat.shiftRight_eq_div_pow]
  refine Nat.div_le_of_le_mul ?_
  have series := arctangent_le turnPlaces (2 ^ turnPlaces)
  calc
    _ ≤ 4 * ((turnPlaces + 64) * 2 ^ turnPlaces) := Nat.mul_le_mul_left 4 series
    _ = 2 ^ (turnPlaces - anglePlaces) * (turnBound * 2 ^ anglePlaces) := by
      rw [two_pow_turnPlaces, turnBound]
      ring

theorem le_shortHalfTurn : 2 * 2 ^ anglePlaces ≤ shortHalfTurn := by
  rw [shortHalfTurn, halfTurn, Nat.shiftRight_eq_div_pow,
    Nat.le_div_iff_mul_le (Nat.two_pow_pos _)]
  have series := half_le_arctangent turnPlaces
  have even : 2 * (2 ^ turnPlaces / 2) = 2 ^ turnPlaces :=
    Nat.mul_div_cancel' (dvd_pow_self 2 (by rw [turnPlaces_eq]; decide))
  calc
    _ = 2 * 2 ^ turnPlaces := by
      rw [two_pow_turnPlaces]
      ring
    _ ≤ 4 * arctangent turnPlaces (2 ^ turnPlaces) := by omega

/-- A number with fixed binary places keeps a bound. -/
theorem within_ofFixed
    {bound : Nat}
    {value : Int}
    (small : value.natAbs ≤ bound * 2 ^ anglePlaces)
    (room : 2 * bound + 1 < 2 ^ wholePlaces) :
    Within (2 * bound + 1) (ofFixed value) := by
  refine within_ofQuotient _ ?_ room
  calc
    _ ≤ bound * 2 ^ anglePlaces * one := Nat.mul_le_mul_right one small
    _ = bound * one * 2 ^ anglePlaces := by ring

theorem lt_two_pow_wholePlaces {number : Nat} (small : number ≤ 2 ^ 64) :
    number < 2 ^ wholePlaces := by
  have large := two_pow_sixty_four_le_scale
  rw [two_pow_wholePlaces]
  omega

theorem pi_within : Within (2 * turnBound + 1) pi :=
  within_ofFixed shortHalfTurn_le (lt_two_pow_wholePlaces (by rw [turnBound_eq]; decide))

/-- The circle constant is not lost in rounding. -/
theorem isAtLeastOne_pi : IsAtLeastOne pi := by
  have finite := pi_within.isFinite
  have exact : 2 * one ≤ shortHalfTurn * one / 2 ^ anglePlaces := by
    rw [Nat.le_div_iff_mul_le (Nat.two_pow_pos _)]
    calc
      _ = 2 * 2 ^ anglePlaces * one := by ring
      _ ≤ shortHalfTurn * one := Nat.mul_le_mul_right one le_shortHalfTurn
  have rounded := le_two_mul_roundedUnits (shortHalfTurn * one) (2 ^ anglePlaces)
  revert finite
  simp only [pi, ofFixed, ofQuotient, Int.natAbs_natCast]
  split
  · intro _
    simp only [IsAtLeastOne]
    omega
  · simp [isFinite]

/-! ## Angles of vectors -/

theorem steepness_le (rise run : Nat) : steepness rise run ≤ turnBound * 2 ^ anglePlaces := by
  unfold steepness
  split
  · refine Nat.le_trans (arctangent_le _ _) (Nat.mul_le_mul_right _ ?_)
    rw [turnBound_eq, anglePlaces_eq]
    decide
  · have turn := shortHalfTurn_le
    omega

/-- The angle of a vector is bounded. -/
theorem within_vectorAngle (down : Bool) (rise : Nat) (left : Bool) (run : Nat) :
    Within (2 * turnBound + 1) (vectorAngle down rise left run) := by
  have turn := shortHalfTurn_le
  have steep := steepness_le rise run
  have room : 2 * turnBound + 1 < 2 ^ wholePlaces :=
    lt_two_pow_wholePlaces (by rw [turnBound_eq]; decide)
  have fixed (angle : Nat) (small : angle ≤ turnBound * 2 ^ anglePlaces) :
      Within (2 * turnBound + 1) (if down then -ofFixed angle else ofFixed angle) := by
    have within := @within_ofFixed _ angle small room
    split
    · exact within.neg
    · exact within
  unfold vectorAngle
  split
  · exact Nat.zero_le _
  · refine fixed _ ?_
    split <;> split <;> omega

/-- The angle of a vector with finite components is bounded. -/
theorem within_atan2
    {rise run : Binary64}
    (riseFinite : rise.isFinite = true)
    (runFinite : run.isFinite = true) :
    Within (2 * turnBound + 1) (atan2 rise run) := by
  cases rise with
  | nan => simp [isFinite] at riseFinite
  | infinite negative => simp [isFinite] at riseFinite
  | finite down riseUnits riseFits =>
      cases run with
      | nan => simp [isFinite] at runFinite
      | infinite negative => simp [isFinite] at runFinite
      | finite left runUnits runFits => exact within_vectorAngle _ _ _ _

/-! ## Degrees -/

/-- A quotient by one that is at least two does not round below one. -/
theorem isAtLeastOne_ofNat
    {number : Nat}
    (two_le : 2 ≤ number)
    (room : 2 * number + 1 < 2 ^ wholePlaces) :
    IsAtLeastOne (OfNat.ofNat number : Binary64) := by
  have finite := (within_ofNat number room).isFinite
  have rounded := le_two_mul_roundedUnits (number * one) 1
  have scaled := Nat.mul_le_mul_right one two_le
  rw [Nat.div_one] at rounded
  change IsAtLeastOne (ofQuotient false (number * one) 1)
  change (ofQuotient false (number * one) 1).isFinite = true at finite
  revert finite
  unfold ofQuotient
  split
  · intro _
    simp only [IsAtLeastOne]
    omega
  · simp [isFinite]

/-- A bound in whole numbers for all angles in degrees. -/
def degreeBound : Nat := 2 ^ 26

theorem straightAngle_within : Within 361 straightAngle :=
  within_ofNat 180 (lt_two_pow_wholePlaces (by decide))

theorem isAtLeastOne_straightAngle : IsAtLeastOne straightAngle :=
  isAtLeastOne_ofNat (by decide) (lt_two_pow_wholePlaces (by decide))

/-- The angle in degrees of a vector with finite components is bounded. -/
theorem within_toDegrees
    {angle : Binary64}
    (within : Within (2 * turnBound + 1) angle) :
    Within degreeBound angle.toDegrees := by
  have product := within.mul straightAngle_within
    (lt_two_pow_wholePlaces (by rw [turnBound_eq]; decide))
  have quotient := product.div isAtLeastOne_pi
    (lt_two_pow_wholePlaces (by rw [turnBound_eq]; decide))
  exact quotient.mono (by rw [turnBound_eq]; decide)

/-- A bounded angle in degrees is a finite one in radians. -/
theorem isFinite_toRadians
    {angle : Binary64}
    (within : Within degreeBound angle) :
    angle.toRadians.isFinite = true := by
  have product := within.mul pi_within
    (lt_two_pow_wholePlaces (by rw [turnBound_eq]; decide))
  have quotient := product.div isAtLeastOne_straightAngle
    (lt_two_pow_wholePlaces (by rw [turnBound_eq]; decide))
  exact quotient.isFinite

end Binary64
end Joinery
