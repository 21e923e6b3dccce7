import Joinery.Binary64.Thousandth

/-!
# Whole numbers

Whole numbers that are not too large are represented exactly, and so are their halves.
-/

namespace Joinery
namespace Binary64

/-- A natural number with few enough binary digits is represented exactly, and so are its
halves, quarters and so on. -/
theorem fits_shifted
    {number places : Nat}
    (small : number ≤ 2 ^ precision)
    (le : places ≤ unitPlaces) :
    Fits (number * 2 ^ places) := by
  refine ⟨?_, spacing_dvd_shifted number places small⟩
  have few : precision < wholePlaces := by
    unfold precision wholePlaces
    decide
  calc number * 2 ^ places
      ≤ 2 ^ precision * 2 ^ unitPlaces :=
        Nat.mul_le_mul small (Nat.pow_le_pow_right (by decide) le)
    _ = 2 ^ (precision + unitPlaces) := (Nat.pow_add ..).symm
    _ < limit := Nat.pow_lt_pow_right (by decide) (by omega)

theorem ofIntQuotient_whole
    {number : Nat}
    (small : number ≤ 2 ^ precision) :
    ofIntQuotient number 1 = .finite false (number * one) (fits_shifted small (Nat.le_refl _)) := by
  have exact := ofQuotient_of_fits false Nat.one_pos (fits_shifted small (Nat.le_refl _))
  have nonnegative : ¬ (number : Int) < 0 := by omega
  rw [Nat.mul_one] at exact
  rw [ofIntQuotient, Int.natAbs_natCast, decide_eq_false nonnegative]
  exact exact

/-- Number of units in one half. -/
def halfUnits : Nat := 2 ^ (unitPlaces - 1)

theorem one_eq_halves : one = 2 * halfUnits := by
  rw [one, halfUnits, ← Nat.pow_succ']
  congr 1
  unfold unitPlaces
  rfl

theorem halfUnits_pos : 0 < halfUnits := Nat.two_pow_pos _

/-- One half is represented exactly. -/
theorem exists_half_finite : ∃ fits, half = .finite false halfUnits fits := by
  have fits := @fits_shifted 1 (unitPlaces - 1) (by decide) (Nat.sub_le _ _)
  rw [Nat.one_mul] at fits
  refine ⟨fits, ?_⟩
  rw [half, one_eq_halves, Nat.mul_comm]
  exact ofQuotient_of_fits false (by decide) fits

/-- Half of a natural number is cut to its half without the remainder. -/
theorem truncate?_whole_mul_half
    {number : Nat}
    (small : number ≤ 2 ^ precision) :
    (ofIntQuotient number 1 * half).truncate? = some ((number / 2 : Nat) : Int) := by
  obtain ⟨halfFits, halfEq⟩ := exists_half_finite
  have productFits : Fits (number * halfUnits) := fits_shifted small (Nat.sub_le _ _)
  have product :
      ofIntQuotient number 1 * half = .finite false (number * halfUnits) productFits := by
    have exact := ofQuotient_of_fits false one_pos productFits
    rw [Nat.mul_right_comm] at exact
    rw [ofIntQuotient_whole small, halfEq]
    exact exact
  have cut : number * halfUnits / one = number / 2 := by
    rw [one_eq_halves]
    exact Nat.mul_div_mul_right number 2 halfUnits_pos
  rw [product]
  simp only [truncate?, signedUnits, Bool.false_eq_true, if_false]
  rw [← Int.ofNat_tdiv, cut]

end Binary64
end Joinery
