import Joinery.Proofs.Binary64.Magnitude
import Joinery.Proofs.Binary64.Whole

/-!
# Rounding to nearest

Rounding keeps the order, so that a quotient between two numbers is rounded to a number
between them. Its error is at most half of the spacing at the result. Both together say what
a rounded quotient is, wherever the spacing at the quotient is known.
-/

namespace Joinery
namespace Binary64

/-! ## Nearest whole numbers -/

section Nearest

variable {numerator denominator bound : Nat}

/-- A quotient and the whole number nearest to it differ by one half at most. -/
theorem nearest_near (positive : 0 < denominator) :
    2 * (nearest numerator denominator * denominator) ≤ 2 * numerator + denominator ∧
      2 * numerator ≤ 2 * (nearest numerator denominator * denominator) + denominator := by
  have split := Nat.div_add_mod' numerator denominator
  have below := Nat.mod_lt numerator positive
  have next := Nat.succ_mul (numerator / denominator) denominator
  rw [Nat.succ_eq_add_one] at next
  unfold nearest
  grind

/-- A whole number that is less than one half away from a quotient is the nearest one. -/
theorem nearest_eq
    (below : 2 * numerator < 2 * (bound * denominator) + denominator)
    (above : 2 * (bound * denominator) < 2 * numerator + denominator) :
    nearest numerator denominator = bound := by
  have positive : 0 < denominator := by omega
  obtain ⟨least, most⟩ := @nearest_near numerator denominator positive
  generalize nearest numerator denominator = found at least most ⊢
  rcases Nat.lt_trichotomy found bound with less | same | more
  · have further := Nat.mul_le_mul_right denominator (Nat.succ_le_of_lt less)
    rw [Nat.succ_mul] at further
    omega
  · exact same
  · have further := Nat.mul_le_mul_right denominator (Nat.succ_le_of_lt more)
    rw [Nat.succ_mul] at further
    omega

theorem nearest_le_of_le
    (positive : 0 < denominator)
    (le : numerator ≤ bound * denominator) :
    nearest numerator denominator ≤ bound := by
  obtain ⟨least, -⟩ := @nearest_near numerator denominator positive
  rw [← Nat.not_lt]
  intro more
  have further := Nat.mul_le_mul_right denominator (Nat.succ_le_of_lt more)
  rw [Nat.succ_mul] at further
  omega

theorem le_nearest_of_le
    (positive : 0 < denominator)
    (le : bound * denominator ≤ numerator) :
    bound ≤ nearest numerator denominator :=
  ((Nat.le_div_iff_mul_le positive).mpr le).trans (div_le_nearest _ _)

theorem nearest_mul_right
    {factor : Nat}
    (positive : 0 < factor) :
    nearest (numerator * factor) (denominator * factor) = nearest numerator denominator := by
  have less {left right : Nat} : left * factor < right * factor ↔ left < right :=
    Nat.mul_lt_mul_right positive
  unfold nearest
  simp only [Nat.mul_div_mul_right _ _ positive, Nat.mul_mod_mul_right, ← Nat.mul_assoc, less]

/-- A quotient in the middle between two whole numbers is rounded to the even one. -/
theorem nearest_middle
    {number half : Nat}
    (positive : 0 < half) :
    nearest (number * (2 * half) + half) (2 * half) = number + number % 2 := by
  have quotient : (number * (2 * half) + half) / (2 * half) = number := by
    rw [Nat.mul_comm, Nat.mul_add_div (by omega), Nat.div_eq_of_lt (by omega), Nat.add_zero]
  have remainder : (number * (2 * half) + half) % (2 * half) = half := by
    rw [Nat.mul_comm, Nat.mul_add_mod, Nat.mod_eq_of_lt (by omega)]
  simp only [nearest, quotient, remainder, Nat.lt_irrefl, if_false]
  split <;> omega

end Nearest

/-! ## Spacing -/

theorem spacing_dvd_spacing {small large : Nat} (le : small ≤ large) :
    spacing small ∣ spacing large := by
  refine Nat.pow_dvd_pow 2 ?_
  have logs : small.log2 ≤ large.log2 := by
    rcases Nat.eq_zero_or_pos small with rfl | positive
    · exact Nat.zero_le _
    · rw [Nat.le_log2 (by omega)]
      exact (Nat.log2_self_le (by omega)).trans le
  omega

theorem spacing_mono {small large : Nat} (le : small ≤ large) :
    spacing small ≤ spacing large :=
  Nat.le_of_dvd (spacing_pos large) (spacing_dvd_spacing le)

/-- A spacing that is smaller is at most one half. -/
theorem two_mul_spacing_le {first second : Nat} (less : spacing first < spacing second) :
    2 * spacing first ≤ spacing second := by
  unfold spacing at less ⊢
  rw [Nat.pow_lt_pow_iff_right (by decide)] at less
  rw [← Nat.pow_succ']
  exact Nat.pow_le_pow_right (by decide) less

/-- Every count of units has at most 53 digits in front of its spacing. -/
theorem lt_mul_spacing (units : Nat) : units < 2 ^ 53 * spacing units := by
  unfold spacing precision
  rw [← Nat.pow_add]
  exact Nat.lt_of_lt_of_le Nat.lt_log2_self (Nat.pow_le_pow_right (by decide) (by omega))

/-- Between powers of two, the spacing does not change. -/
theorem spacing_eq
    {units places : Nat}
    (least : 2 ^ 52 * 2 ^ places ≤ units)
    (most : units < 2 ^ 53 * 2 ^ places) :
    spacing units = 2 ^ places := by
  rw [← Nat.pow_add] at least most
  have positive : units ≠ 0 := (Nat.lt_of_lt_of_le (Nat.two_pow_pos _) least).ne'
  have log : units.log2 = 52 + places := by
    have lower := (Nat.le_log2 positive).mpr least
    have upper := (Nat.log2_lt positive).mpr most
    omega
  rw [spacing, precision, log]
  congr 1
  omega

/-- Large counts of units have a large spacing. -/
theorem pow_dvd_spacing
    {units places : Nat}
    (large : 2 ^ 52 * 2 ^ places ≤ units) :
    2 ^ places ∣ spacing units := by
  have exactly : spacing (2 ^ 52 * 2 ^ places) = 2 ^ places :=
    spacing_eq (Nat.le_refl _) (Nat.mul_lt_mul_of_pos_right (by decide) (Nat.two_pow_pos _))
  have dvd := spacing_dvd_spacing large
  rwa [exactly] at dvd

theorem spacing_dvd_of_lt
    {units places : Nat}
    (below : units < 2 ^ 53 * 2 ^ places) :
    spacing units ∣ 2 ^ places := by
  rw [← Nat.pow_add] at below
  refine Nat.pow_dvd_pow 2 ?_
  unfold precision
  rcases Nat.eq_zero_or_pos units with rfl | positive
  · exact Nat.zero_le _
  · have log := (Nat.log2_lt positive.ne').mpr below
    omega

/-- The spacing is one, or at least 53 digits stand in front of it. -/
theorem spacing_cases (units : Nat) :
    spacing units = 1 ∨ ∃ places, spacing units = 2 ^ places ∧ 2 ^ 52 * 2 ^ places ≤ units := by
  rcases Nat.lt_or_ge units.log2 52 with few | many
  · refine Or.inl ?_
    rw [spacing, precision, show units.log2 + 1 - 53 = 0 by omega, Nat.pow_zero]
  · refine Or.inr ⟨units.log2 + 1 - precision, rfl, ?_⟩
    have nonzero : units ≠ 0 := by
      rintro rfl
      simp at many
    rw [← Nat.pow_add]
    refine Nat.le_trans (Nat.pow_le_pow_right (by decide) ?_) (Nat.log2_self_le nonzero)
    unfold precision
    omega

/-- The digits and the spacing of a count of units that is not small. -/
theorem exists_digits
    {units : Nat}
    (large : 2 ^ 52 ≤ units)
    (exact : spacing units ∣ units) :
    ∃ digits places, units = digits * 2 ^ places ∧ spacing units = 2 ^ places ∧
      2 ^ 52 ≤ digits ∧ digits < 2 ^ 53 := by
  obtain ⟨places, known, least⟩ :
      ∃ places, spacing units = 2 ^ places ∧ 2 ^ 52 * 2 ^ places ≤ units := by
    rcases spacing_cases units with single | found
    · exact ⟨0, single, by rwa [Nat.pow_zero, Nat.mul_one]⟩
    · exact found
  have most := lt_mul_spacing units
  rw [known] at exact most
  obtain ⟨digits, written⟩ := exact
  rw [Nat.mul_comm] at written
  rw [written] at least most
  exact ⟨digits, places, written, known,
    Nat.le_of_mul_le_mul_right least (Nat.two_pow_pos _), Nat.lt_of_mul_lt_mul_right most⟩

/-- Counts of units with the same number of ones have the same spacing. -/
theorem spacing_eq_of_div_eq
    {first second : Nat}
    (same : first / one = second / one)
    (large : one ≤ first) :
    spacing first = spacing second := by
  have logs {units : Nat} (large : one ≤ units) :
      units.log2 = (units / one).log2 + unitPlaces := by
    have positive : units / one ≠ 0 := (Nat.div_pos large one_pos).ne'
    have lower : 2 ^ ((units / one).log2 + unitPlaces) ≤ units := by
      rw [Nat.pow_add]
      exact (Nat.mul_le_mul_right one (Nat.log2_self_le positive)).trans
        (Nat.div_mul_le_self _ _)
    have upper : units < 2 ^ ((units / one).log2 + 1 + unitPlaces) := by
      rw [Nat.pow_add]
      exact (Nat.div_lt_iff_lt_mul one_pos).mp Nat.lt_log2_self
    have nonzero : units ≠ 0 := (Nat.lt_of_lt_of_le one_pos large).ne'
    have least := (Nat.le_log2 nonzero).mpr lower
    have most := (Nat.log2_lt nonzero).mpr upper
    omega
  have larger : one ≤ second := by
    have several := Nat.div_pos large one_pos
    rw [same] at several
    exact (Nat.div_pos_iff.mp several).2
  rw [spacing, spacing, logs large, logs larger, same]

/-! ## Rounded quotients -/

section Rounded

variable {numerator denominator units places : Nat}

theorem spacing_dvd_roundedUnits (numerator denominator : Nat) :
    spacing (roundedUnits numerator denominator) ∣ roundedUnits numerator denominator :=
  spacing_dvd_shifted _ _ (nearest_spacing_le _ _)

theorem roundedUnits_mul_right
    {factor : Nat}
    (positive : 0 < factor) :
    roundedUnits (numerator * factor) (denominator * factor) =
      roundedUnits numerator denominator := by
  dsimp only [roundedUnits]
  rw [Nat.mul_div_mul_right _ _ positive, Nat.mul_right_comm, nearest_mul_right positive]

theorem ofQuotient_mul_right
    {factor : Nat}
    (positive : 0 < factor)
    (negative : Bool) :
    ofQuotient negative (numerator * factor) (denominator * factor) =
      ofQuotient negative numerator denominator := by
  simp only [ofQuotient, roundedUnits_mul_right positive]

/-- A quotient of a known spacing is rounded to multiples of it. -/
theorem roundedUnits_eq
    (positive : 0 < denominator)
    (least : 2 ^ 52 * 2 ^ places * denominator ≤ numerator)
    (most : numerator < 2 ^ 53 * 2 ^ places * denominator) :
    roundedUnits numerator denominator =
      nearest numerator (denominator * 2 ^ places) * 2 ^ places := by
  dsimp only [roundedUnits]
  rw [spacing_eq ((Nat.le_div_iff_mul_le positive).mpr least)
    ((Nat.div_lt_iff_lt_mul positive).mpr most)]

/-- What is at most a number is rounded to at most that number. -/
theorem roundedUnits_le_of_le
    (positive : 0 < denominator)
    (exact : spacing units ∣ units)
    (le : numerator ≤ units * denominator) :
    roundedUnits numerator denominator ≤ units := by
  dsimp only [roundedUnits]
  have below : numerator / denominator ≤ units :=
    Nat.div_le_of_le_mul (by rwa [Nat.mul_comm])
  have steps := spacing_pos (numerator / denominator)
  obtain ⟨count, rfl⟩ := (spacing_dvd_spacing below).trans exact
  generalize spacing (numerator / denominator) = step at le steps ⊢
  have few : nearest numerator (denominator * step) ≤ count := by
    refine nearest_le_of_le (Nat.mul_pos positive steps) (le.trans_eq ?_)
    ring
  rw [Nat.mul_comm step]
  exact Nat.mul_le_mul_right step few

/-- What is at least a number is rounded to at least that number. -/
theorem le_roundedUnits_of_le
    (positive : 0 < denominator)
    (exact : spacing units ∣ units)
    (le : units * denominator ≤ numerator) :
    units ≤ roundedUnits numerator denominator := by
  have above : units ≤ numerator / denominator := (Nat.le_div_iff_mul_le positive).mpr le
  have quotient := Nat.div_mul_le_self numerator denominator
  have steps := spacing_pos (numerator / denominator)
  dsimp only [roundedUnits]
  rcases Nat.lt_or_eq_of_le (spacing_mono above) with smaller | same
  · -- The number has a smaller spacing, so it is below all numbers of the larger one.
    have double := two_mul_spacing_le smaller
    have short := lt_mul_spacing units
    rcases spacing_cases (numerator / denominator) with single | ⟨places, known, least⟩
    · have known := spacing_pos units
      omega
    · rw [← known] at least
      generalize spacing (numerator / denominator) = step at *
      have many : 2 ^ 52 ≤ nearest numerator (denominator * step) := by
        refine le_nearest_of_le (Nat.mul_pos positive steps) (le_trans (le_of_eq ?_)
          ((Nat.mul_le_mul_right denominator least).trans quotient))
        ring
      have whole := Nat.mul_le_mul_right step many
      omega
  · rw [← same] at steps ⊢
    generalize spacing units = step at *
    obtain ⟨count, rfl⟩ := exact
    rw [Nat.mul_comm step]
    refine Nat.mul_le_mul_right step
      (le_nearest_of_le (Nat.mul_pos positive steps) (le_trans (le_of_eq ?_) le))
    ring

/-- A number is the rounding of what is less than half of the spacing away from it. -/
theorem roundedUnits_eq_of_near
    (exact : spacing numerator ∣ units)
    (below : 2 * numerator < 2 * units + spacing numerator)
    (above : 2 * units < 2 * numerator + spacing numerator) :
    roundedUnits numerator 1 = units := by
  dsimp only [roundedUnits]
  rw [Nat.div_one, Nat.one_mul]
  obtain ⟨count, rfl⟩ := exact
  rw [Nat.mul_comm _ count] at below above ⊢
  rw [nearest_eq below above]

/-- Rounding is off by at most half of the spacing at its result. -/
theorem roundedUnits_near (positive : 0 < denominator) :
    let rounded := roundedUnits numerator denominator
    2 * (rounded * denominator) ≤ 2 * numerator + denominator * spacing rounded ∧
      2 * numerator ≤ 2 * (rounded * denominator) + denominator * spacing rounded := by
  intro rounded
  have steps := spacing_pos (numerator / denominator)
  have wider : spacing (numerator / denominator) ≤ spacing rounded := by
    rcases spacing_cases (numerator / denominator) with single | ⟨places, known, least⟩
    · rw [single]
      exact spacing_pos rounded
    · have exactly : spacing (2 ^ 52 * 2 ^ places) = 2 ^ places :=
        spacing_eq (Nat.le_refl _) (Nat.mul_lt_mul_of_pos_right (by decide) (Nat.two_pow_pos _))
      rw [known, ← exactly]
      refine spacing_mono (le_roundedUnits_of_le positive ?_ ?_)
      · rw [exactly]
        exact Nat.dvd_mul_left _ _
      · exact (Nat.mul_le_mul_right _ least).trans (Nat.div_mul_le_self _ _)
  obtain ⟨least, most⟩ :=
    @nearest_near numerator (denominator * spacing (numerator / denominator))
      (Nat.mul_pos positive steps)
  have within := Nat.mul_le_mul_left denominator wider
  have product : rounded * denominator =
      nearest numerator (denominator * spacing (numerator / denominator)) *
        (denominator * spacing (numerator / denominator)) := by
    change _ * spacing _ * denominator = _
    ring
  rw [← product] at least most
  omega

end Rounded

end Binary64
end Joinery
