import Mathlib.Algebra.Order.Field.Rat
import Mathlib.Algebra.Order.Floor.Semifield
import Mathlib.Tactic.FieldSimp
import Mathlib.Tactic.Positivity
import Joinery.Binary64.Decimal
import Joinery.Proofs.Binary64.Magnitude
import Joinery.Proofs.Binary64.Whole

/-!
# Size of the shortest digits

The shortest digits of a number stand next to it, so that they have their point where the
number has it. A number with a fraction is below `2 ^ 53`, and its shortest digits are
below `10 ^ 16`: they are written without an exponent unless they are below `0.0001`.
-/

namespace Joinery

/-- The value of a decimal number. -/
def Decimal.ratio (decimal : Decimal) : ℚ := decimal.digits * 10 ^ decimal.exponent

namespace Decimal

variable {decimal : Decimal} {count : Nat}

theorem step_pos (exponent : Int) : (0 : ℚ) < 10 ^ exponent := zpow_pos (by norm_num) _

theorem le_ratio (enough : 10 ^ count ≤ decimal.digits) :
    (10 : ℚ) ^ (count + decimal.exponent) ≤ decimal.ratio := by
  rw [ratio, zpow_add₀ (by norm_num), zpow_natCast, mul_le_mul_iff_left₀ (step_pos _)]
  exact_mod_cast enough

theorem ratio_le (few : decimal.digits ≤ 10 ^ count) :
    decimal.ratio ≤ (10 : ℚ) ^ (count + decimal.exponent) := by
  rw [ratio, zpow_add₀ (by norm_num), zpow_natCast, mul_le_mul_iff_left₀ (step_pos _)]
  exact_mod_cast few

theorem ratio_lt (few : decimal.digits < 10 ^ count) :
    decimal.ratio < (10 : ℚ) ^ (count + decimal.exponent) := by
  rw [ratio, zpow_add₀ (by norm_num), zpow_natCast, mul_lt_mul_iff_left₀ (step_pos _)]
  exact_mod_cast few

end Decimal

namespace Binary64

/-- The value of a count of units. -/
def ratio (units : Nat) : ℚ := (units : ℚ) / one

theorem one_pos_rat : (0 : ℚ) < one := Nat.cast_pos.mpr one_pos

/-! ## Numbers of digits -/

theorem length_ofNat_pos (number : Nat) : 0 < (Text.ofNat number).length :=
  Nat.length_toDigits_pos

theorem lt_ten_pow_length (number : Nat) : number < 10 ^ (Text.ofNat number).length :=
  (Nat.length_toDigits_le_iff (by decide) (length_ofNat_pos number)).mp (Nat.le_refl _)

theorem ten_pow_length_le
    {number : Nat}
    (positive : 0 < number) :
    10 ^ ((Text.ofNat number).length - 1) ≤ number := by
  have several := length_ofNat_pos number
  rcases Nat.eq_zero_or_pos ((Text.ofNat number).length - 1) with single | more
  · rw [single, Nat.pow_zero]
    exact positive
  · rw [← Nat.not_lt]
    intro small
    have short := (@Nat.length_toDigits_le_iff 10 number _ (by decide) more).mpr small
    change (Text.ofNat number).length ≤ _ at short
    omega

/-- A number with as many digits lies between powers of ten. -/
theorem exists_length_ofNat
    {number : Nat}
    (positive : 0 < number) :
    ∃ count, (Text.ofNat number).length = count + 1 ∧ 10 ^ count ≤ number ∧
      number < 10 ^ (count + 1) := by
  have least := ten_pow_length_le positive
  have most := lt_ten_pow_length number
  obtain ⟨count, length⟩ := Nat.exists_eq_succ_of_ne_zero (length_ofNat_pos number).ne'
  rw [length] at least most
  exact ⟨count, length, least, most⟩

/-- The point stands where the size of the number wants it. -/
theorem ratio_bounds
    {units : Nat}
    (positive : 0 < units) :
    (10 : ℚ) ^ (pointPosition units - 1) ≤ ratio units ∧
      ratio units < 10 ^ pointPosition units := by
  have oneLarge := one_pos_rat
  unfold pointPosition ratio
  split
  next large =>
    have whole : 0 < units / one := Nat.div_pos large one_pos
    obtain ⟨count, length, least, most⟩ := exists_length_ofNat whole
    have below : 10 ^ count * one ≤ units := (Nat.le_div_iff_mul_le one_pos).mp least
    have above : units < 10 ^ (count + 1) * one := (Nat.div_lt_iff_lt_mul one_pos).mp most
    rw [length, Nat.cast_succ, add_sub_cancel_right, le_div_iff₀ oneLarge,
      div_lt_iff₀ oneLarge, zpow_natCast]
    refine ⟨?_, ?_⟩
    · exact_mod_cast below
    · exact_mod_cast above
  next small =>
    -- The reciprocal is rounded up, so that one less has as many digits as zeros follow.
    have quotient := Nat.div_mul_le_self (one + units - 1) units
    have remainder := Nat.lt_mul_div_succ (one + units - 1) positive
    have several : 2 ≤ (one + units - 1) / units :=
      (Nat.le_div_iff_mul_le positive).mpr (by omega)
    generalize (one + units - 1) / units = reciprocal at *
    obtain ⟨before, rfl⟩ : ∃ before, reciprocal = before + 1 := ⟨reciprocal - 1, by omega⟩
    rw [Nat.add_mul, Nat.one_mul] at quotient
    rw [Nat.mul_add, Nat.mul_one] at remainder
    rw [Nat.add_sub_cancel]
    obtain ⟨count, length, least, most⟩ := exists_length_ofNat (by omega : 0 < before)
    have below : one ≤ units * 10 ^ (count + 1) := by
      have scaled : units * (before + 1) ≤ units * 10 ^ (count + 1) :=
        Nat.mul_le_mul_left units most
      omega
    have above : units * 10 ^ count < one := by
      have scaled := Nat.mul_le_mul_right units least
      rw [Nat.mul_comm]
      omega
    have first : (1 : ℤ) - (count + 1 : ℕ) - 1 = -((count + 1 : ℕ) : ℤ) := by omega
    have second : (1 : ℤ) - (count + 1 : ℕ) = -((count : ℕ) : ℤ) := by omega
    rw [length, first, second, zpow_neg, zpow_neg, zpow_natCast, zpow_natCast,
      inv_eq_one_div, inv_eq_one_div, div_le_div_iff₀ (by positivity) oneLarge,
      div_lt_div_iff₀ oneLarge (by positivity)]
    refine ⟨?_, ?_⟩
    · rw [one_mul]
      exact_mod_cast below
    · rw [one_mul]
      exact_mod_cast above

/-! ## Digits next to a number -/

/-- A quotient in steps is the number of steps. -/
theorem inSteps_ratio (units : Nat) (exponent : Int) :
    0 < (inSteps units exponent).2 ∧
      ((inSteps units exponent).1 : ℚ) / (inSteps units exponent).2 * 10 ^ exponent =
        ratio units := by
  have oneLarge := one_pos_rat
  cases exponent with
  | ofNat places =>
      refine ⟨Nat.mul_pos one_pos (Nat.pow_pos (by decide)), ?_⟩
      simp only [inSteps, ratio, Int.ofNat_eq_natCast, zpow_natCast]
      push_cast
      field_simp
  | negSucc places =>
      refine ⟨one_pos, ?_⟩
      simp only [inSteps, ratio, zpow_negSucc]
      push_cast
      field_simp

/-- So many steps as have one more digit than the given count make a number. -/
theorem inSteps_bounds
    {units : Nat}
    (positive : 0 < units)
    (count : Nat) :
    let steps := inSteps units (pointPosition units - (count + 1 : Nat))
    10 ^ count ≤ steps.1 / steps.2 ∧ steps.1 / steps.2 < 10 ^ (count + 1) := by
  intro steps
  obtain ⟨least, most⟩ := ratio_bounds positive
  obtain ⟨divides, scaled⟩ := inSteps_ratio units (pointPosition units - (count + 1 : Nat))
  change 0 < steps.2 at divides
  change (steps.1 : ℚ) / steps.2 * _ = _ at scaled
  have ten : (10 : ℚ) ≠ 0 := by norm_num
  have step := Decimal.step_pos (pointPosition units - (count + 1 : Nat))
  have divisor : (0 : ℚ) < steps.2 := Nat.cast_pos.mpr divides
  have first : pointPosition units - 1 =
      (count : ℕ) + (pointPosition units - (count + 1 : Nat)) := by omega
  have second : (10 : ℚ) ^ pointPosition units =
      10 ^ (count + 1) * 10 ^ (pointPosition units - (count + 1 : Nat)) := by
    rw [← zpow_natCast, ← zpow_add₀ ten]
    congr 1
    omega
  rw [← scaled, first, zpow_add₀ ten, zpow_natCast, mul_le_mul_iff_left₀ step,
    le_div_iff₀ divisor] at least
  rw [← scaled, second, mul_lt_mul_iff_left₀ step, div_lt_iff₀ divisor] at most
  rw [Nat.le_div_iff_mul_le divides, Nat.div_lt_iff_lt_mul divides]
  refine ⟨?_, ?_⟩
  · exact_mod_cast least
  · exact_mod_cast most

/-- The decimal numbers next to a number are the quotient in steps or one more. -/
theorem digits_of_mem_neighbours
    {units : Nat}
    {exponent : Int}
    {decimal : Decimal}
    (member : decimal ∈ neighbours units exponent) :
    let steps := inSteps units exponent
    decimal.exponent = exponent ∧ steps.1 / steps.2 ≤ decimal.digits ∧
      decimal.digits ≤ steps.1 / steps.2 + 1 := by
  unfold neighbours at member
  generalize inSteps units exponent = steps at member ⊢
  have below := div_le_nearest steps.1 steps.2
  have above := nearest_le steps.1 steps.2
  rcases List.mem_pair.mp member with rfl | rfl
  · exact ⟨rfl, below, above⟩
  · refine ⟨rfl, ?_⟩
    dsimp only
    split
    · exact ⟨Nat.le_succ _, Nat.le_refl _⟩
    · exact ⟨Nat.le_refl _, Nat.le_succ _⟩

theorem ratio_exactDecimal (units : Nat) : (exactDecimal units).ratio = ratio units := by
  have ten : (10 : ℚ) ^ unitPlaces = 2 ^ unitPlaces * 5 ^ unitPlaces := by
    rw [← mul_pow]
    norm_num
  simp only [Decimal.ratio, exactDecimal, ratio, one, zpow_neg, zpow_natCast, ten]
  push_cast
  field_simp

/-- The shortest digits of a number lie between the powers of ten next to it. -/
theorem ratio_shortest_bounds
    {units : Nat}
    (positive : 0 < units) :
    (10 : ℚ) ^ (pointPosition units - 1) ≤ (shortest units).ratio ∧
      (shortest units).ratio ≤ 10 ^ pointPosition units := by
  unfold shortest
  cases found : (candidates units).find? fun decimal => decide (ReadsBack units decimal) with
  | none =>
      obtain ⟨least, most⟩ := ratio_bounds positive
      rw [Option.getD_none, ratio_exactDecimal]
      exact ⟨least, most.le⟩
  | some decimal =>
      obtain ⟨count, -, member⟩ := List.mem_flatMap.mp (List.mem_of_find?_eq_some found)
      obtain ⟨exponent, below, above⟩ := digits_of_mem_neighbours member
      obtain ⟨enough, few⟩ := inSteps_bounds positive count
      have least := Decimal.le_ratio (enough.trans below)
      have most := Decimal.ratio_le (above.trans few)
      rw [exponent] at least most
      rw [Option.getD_some]
      refine ⟨?_, ?_⟩
      · convert least using 2
        omega
      · convert most using 2
        omega

/-! ## Numbers with a fraction -/

theorem pos_of_fraction {units : Nat} (fractional : units % one ≠ 0) : 0 < units := by
  rcases Nat.eq_zero_or_pos units with rfl | positive
  · exact absurd (Nat.zero_mod one) fractional
  · exact positive

/-- A number of at least `2 ^ 53` has no fraction. -/
theorem lt_of_fraction
    {units : Nat}
    (fits : Fits units)
    (fractional : units % one ≠ 0) :
    units < 2 ^ precision * one := by
  rw [← Nat.not_le]
  intro large
  rw [one, ← Nat.pow_add] at large
  have positive := (pos_of_fraction fractional).ne'
  have size := (Nat.le_log2 positive).mpr large
  refine fractional (Nat.mod_eq_zero_of_dvd (Nat.dvd_trans ?_ fits.2))
  exact Nat.pow_dvd_pow 2 (by omega)

theorem fits_ten_pow_sixteen : Fits (10 ^ 16 * one) := by
  have split : 10 ^ 16 * one = 5 ^ 16 * 2 ^ (16 + unitPlaces) := by
    rw [one, Nat.pow_add]
    ring
  refine ⟨?_, ?_⟩
  · rw [limit_eq]
    refine Nat.mul_lt_mul_of_pos_right ?_ one_pos
    calc 10 ^ 16 < 2 ^ 54 := by decide
      _ ≤ 2 ^ wholePlaces := Nat.pow_le_pow_right (by decide) (by unfold wholePlaces; decide)
  · rw [split]
    exact spacing_dvd_shifted _ _ (by decide)

/-- Digits for `10 ^ 16` read back as that number. -/
theorem ofDecimal_of_ratio
    {decimal : Decimal}
    (whole : decimal.ratio = 10 ^ 16) :
    ofDecimal false decimal = .finite false (10 ^ 16 * one) fits_ten_pow_sixteen := by
  obtain ⟨digits, exponent⟩ := decimal
  cases exponent with
  | ofNat places =>
      have same : digits * 10 ^ places = 10 ^ 16 := by
        simp only [Decimal.ratio, Int.ofNat_eq_natCast, zpow_natCast] at whole
        exact_mod_cast whole
      have exact := ofQuotient_of_fits false Nat.one_pos fits_ten_pow_sixteen
      rw [Nat.mul_one] at exact
      simp only [ofDecimal, ofScientific, same]
      exact exact
  | negSucc places =>
      have same : digits = 10 ^ 16 * 10 ^ (places + 1) := by
        simp only [Decimal.ratio, zpow_negSucc] at whole
        rw [← div_eq_mul_inv, div_eq_iff (by positivity)] at whole
        exact_mod_cast whole
      have exact := ofQuotient_of_fits false (Nat.pow_pos (by decide) : 0 < 10 ^ (places + 1))
        fits_ten_pow_sixteen
      simp only [ofDecimal, ofScientific, same]
      rw [Nat.mul_right_comm]
      exact exact

/-- The shortest digits of a number with a fraction are below `10 ^ 16`. -/
theorem ratio_shortest_lt
    {units : Nat}
    (fits : Fits units)
    (fractional : units % one ≠ 0) :
    (shortest units).ratio < 10 ^ 16 := by
  have positive := pos_of_fraction fractional
  obtain ⟨least, -⟩ := ratio_bounds positive
  obtain ⟨-, most⟩ := ratio_shortest_bounds positive
  have small : ratio units < 10 ^ (16 : ℤ) := by
    have below : (units : ℚ) < 2 ^ precision * one := by
      exact_mod_cast lt_of_fraction fits fractional
    rw [ratio, div_lt_iff₀ one_pos_rat]
    refine below.trans (mul_lt_mul_of_pos_right ?_ one_pos_rat)
    norm_num [precision]
  have few : pointPosition units - 1 < 16 :=
    (zpow_lt_zpow_iff_right₀ (by norm_num)).mp (least.trans_lt small)
  have bound : (10 : ℚ) ^ pointPosition units ≤ 10 ^ (16 : ℤ) :=
    (zpow_le_zpow_iff_right₀ (by norm_num)).mpr (by omega)
  refine lt_of_le_of_ne (most.trans (by exact_mod_cast bound)) ?_
  -- Digits for `10 ^ 16` would read back as a whole number.
  intro whole
  have same := readsBack_shortest fits
  rw [ReadsBack, ofDecimal_of_ratio whole] at same
  rw [← same] at fractional
  exact fractional (Nat.mul_mod_left _ _)

/-- The shortest digits of a number with a fraction that is at least `0.0001` have their
point where no exponent is needed. -/
theorem point_of_shortest
    {units : Nat}
    (fits : Fits units)
    (fractional : units % one ≠ 0)
    (large : -4 ≤ pointPosition units - 1) :
    let decimal := shortest units
    let point := decimal.exponent + (Text.ofNat decimal.digits).length
    decimal.digits ≠ 0 ∧ -4 ≤ point - 1 ∧ point - 1 < 16 := by
  have positive := pos_of_fraction fractional
  obtain ⟨least, -⟩ := ratio_shortest_bounds positive
  have most := ratio_shortest_lt fits fractional
  generalize shortest units = decimal at least most ⊢
  have nonzero : decimal.digits ≠ 0 := by
    intro none
    rw [Decimal.ratio, none, Nat.cast_zero, zero_mul] at least
    exact absurd (Decimal.step_pos _) least.not_gt
  obtain ⟨count, length, enough, few⟩ := exists_length_ofNat (Nat.pos_of_ne_zero nonzero)
  have above := least.trans_lt (Decimal.ratio_lt few)
  have below := (Decimal.le_ratio enough).trans_lt most
  rw [← zpow_natCast, zpow_lt_zpow_iff_right₀ (by norm_num)] at below
  rw [zpow_lt_zpow_iff_right₀ (by norm_num)] at above
  refine ⟨nonzero, ?_, ?_⟩
  · rw [length]
    omega
  · rw [length]
    omega

end Binary64
end Joinery
