import Joinery.Proofs.Binary64.Half

/-!
# Rounding to thousandths twice

A rounded number is the number next to a count of thousandths. Rounding it again looks for
that count in its thousandfold. Below `2 ^ 42` the thousandfold is so near to the count that
it is found again. From there on the thousandfold has nine or ten digits more than a number
can have, and it is rounded without them. With ten, only the count is left. With nine, two
steps of the thousandfold make one step of the count. If they are halves or ones, one half
added to an odd number of them leads to the next count, which belongs to another number:
these numbers drift. If the steps are larger, one half is lost, and the odd number of them
belongs to the same number as the count.
-/

namespace Joinery
namespace Binary64

/-! ## Thousandfolds -/

section Thousandfold

variable {units : Nat} {fits : Fits units}

/-- The product of a number and a natural number that is represented exactly. -/
theorem finite_mul_ofNat
    {number : Nat}
    (small : number ≤ 2 ^ 53)
    (negative : Bool) :
    .finite negative units fits * ofNat number = ofQuotient negative (number * units) 1 := by
  have exact := ofQuotient_of_fits false Nat.one_pos (fits_whole small)
  rw [Nat.mul_one] at exact
  rw [ofNat, exact, ← @ofQuotient_mul_right (number * units) 1 one one_pos negative]
  change ofQuotient (negative != false) (units * (number * one)) one = _
  rw [Bool.bne_false, Nat.one_mul, Nat.mul_left_comm, Nat.mul_assoc]

theorem finite_mul_thousand (negative : Bool) :
    .finite negative units fits * 1000 = ofQuotient negative (1000 * units) 1 :=
  finite_mul_ofNat (by decide) negative

theorem roundThousandths_of_floor?
    {value : Binary64}
    {floor : Int}
    (found : (value * 1000 + half).floor? = some floor) :
    roundThousandths value = .ok (ofIntQuotient floor 1000) := by
  unfold roundThousandths
  rw [found]

/-- A number is rounded to the thousandths that are found in its thousandfold. -/
theorem roundThousandths_finite
    {floor : Int}
    {negative : Bool}
    {thousandfold : Nat}
    (known : roundedUnits (1000 * units) 1 = thousandfold)
    (room : Fits thousandfold)
    (found : (.finite negative thousandfold room + half).floor? = some floor) :
    roundThousandths (.finite negative units fits) = .ok (ofIntQuotient floor 1000) := by
  subst known
  refine roundThousandths_of_floor? ?_
  rw [finite_mul_thousand, ofQuotient_of_lt _ room.1]
  exact found

end Thousandfold

theorem ofIntQuotient_signedUnits
    {count : Nat}
    (positive : 0 < count)
    (negative : Bool)
    (denominator : Nat) :
    ofIntQuotient (signedUnits negative count) denominator =
      ofQuotient negative (count * one) denominator := by
  have sign : decide (signedUnits negative count < 0) = negative := by
    cases negative with
    | false => simp [signedUnits]
    | true => simpa [signedUnits] using positive
  rw [ofIntQuotient, natAbs_signedUnits, sign]

/-! ## Small numbers -/

theorem one_eq_shifted {places : Nat} (le : places ≤ unitPlaces) :
    one = 2 ^ places * 2 ^ (unitPlaces - places) := by
  rw [one, ← Nat.pow_add, Nat.add_sub_cancel' le]

/-- Below `2 ^ 42`, the thousandths of a rounded number are found again. -/
theorem roundThousandths_of_small
    {count : Nat}
    {fits : Fits (roundedUnits (count * one) 1000)}
    (positive : 0 < count)
    (small : roundedUnits (count * one) 1000 < 2 ^ 42 * one)
    (negative : Bool) :
    roundThousandths (.finite negative _ fits) =
      .ok (ofIntQuotient (signedUnits negative count) 1000) := by
  have halves := one_eq_halves
  have halfPositive := halfUnits_pos
  have eleven : one = 2 ^ 11 * 2 ^ (unitPlaces - 11) :=
    one_eq_shifted (by unfold unitPlaces; decide)
  obtain ⟨least, most⟩ := @roundedUnits_near (count * one) 1000 (by decide)
  have narrow := Nat.le_of_dvd (Nat.two_pow_pos _)
    (@spacing_dvd_of_lt (roundedUnits (count * one) 1000) (unitPlaces - 11) (by omega))
  generalize roundedUnits (count * one) 1000 = units at *
  have bound : (1000 * 2 ^ 42) * one = 1000 * (2 ^ 42 * one) := Nat.mul_assoc _ _ _
  have boundFits := @fits_whole (1000 * 2 ^ 42) (by decide)
  have below := @roundedUnits_le_of_le (1000 * units) 1 _ Nat.one_pos boundFits.2 (by omega)
  obtain ⟨thousandLeast, thousandMost⟩ := @roundedUnits_near (1000 * units) 1 Nat.one_pos
  have thousandNarrow := Nat.le_of_dvd halfPositive
    (@spacing_dvd_of_lt (roundedUnits (1000 * units) 1) (unitPlaces - 1)
      (by change _ < 2 ^ 53 * halfUnits; omega))
  change spacing _ ≤ halfUnits at thousandNarrow
  have few : count < 2 ^ 52 := by
    refine Nat.lt_of_mul_lt_mul_right (a := one) ?_
    omega
  exact roundThousandths_finite rfl (fits_roundedUnits _ _ (below.trans_lt boundFits.1))
    (floor?_add_half_of_near positive few (by omega) (by omega) negative)

/-! ## Large numbers -/

/-- A number of thousandths that is rounded to 53 digits in steps of which 1024 make
`2 ^ spread` ones. -/
structure IsLarge (count digits places spread : Nat) : Prop where
  rounded : roundedUnits (count * one) 1000 = digits * 2 ^ places
  level : 1024 * 2 ^ places = 2 ^ spread * one
  least : 2 ^ 52 ≤ digits
  most : digits < 2 ^ 53

theorem exists_isLarge
    {count : Nat}
    (large : 2 ^ 42 * one ≤ roundedUnits (count * one) 1000) :
    ∃ digits places spread, IsLarge count digits places spread := by
  have enough : 2 ^ 52 ≤ roundedUnits (count * one) 1000 := by
    refine le_trans ?_ large
    rw [one, ← Nat.pow_add]
    exact Nat.pow_le_pow_right (by decide) (by unfold unitPlaces; decide)
  obtain ⟨digits, places, written, -, least, most⟩ :=
    exists_digits enough (spacing_dvd_roundedUnits _ _)
  obtain ⟨spread, level⟩ : ∃ spread, places + 10 = unitPlaces + spread := by
    have wide : 2 ^ (42 + unitPlaces) < 2 ^ (53 + places) := by
      rw [Nat.pow_add, Nat.pow_add]
      refine lt_of_le_of_lt large ?_
      rw [written]
      exact Nat.mul_lt_mul_of_pos_right most (Nat.two_pow_pos _)
    rw [Nat.pow_lt_pow_iff_right (by decide)] at wide
    exact ⟨places + 10 - unitPlaces, by omega⟩
  refine ⟨digits, places, spread, written, ?_, least, most⟩
  rw [one, ← Nat.pow_add, Nat.add_comm spread, ← level, Nat.pow_add, Nat.mul_comm]

namespace IsLarge

variable {count digits places spread : Nat} {fits : Fits (roundedUnits (count * one) 1000)}
  (isLarge : IsLarge count digits places spread)
include isLarge

/-- The thousandfold is at most one half of a thousand steps away from the thousandths. -/
theorem near :
    1000 * (digits * 2 ^ places) ≤ count * one + 500 * 2 ^ places ∧
      count * one ≤ 1000 * (digits * 2 ^ places) + 500 * 2 ^ places := by
  obtain ⟨below, above⟩ := @roundedUnits_near (count * one) 1000 (by decide)
  have spaced : spacing (digits * 2 ^ places) = 2 ^ places :=
    spacing_eq (Nat.mul_le_mul_right _ isLarge.least)
      (Nat.mul_lt_mul_of_pos_right isLarge.most (Nat.two_pow_pos _))
  rw [isLarge.rounded, spaced] at below above
  omega

theorem pos : 0 < count := by
  have below := isLarge.near.1
  have size := Nat.mul_le_mul_right (2 ^ places) isLarge.least
  have positive := Nat.two_pow_pos places
  refine Nat.pos_of_mul_pos_right (b := one) ?_
  omega

/-- The thousandfold has nine or ten digits more, and it is rounded without them. -/
theorem roundedUnits_thousandfold
    (extra : Nat)
    (enough : 2 ^ (52 + extra) ≤ 1000 * digits)
    (few : 1000 * digits < 2 ^ (53 + extra)) :
    roundedUnits (1000 * roundedUnits (count * one) 1000) 1 =
      nearest (1000 * digits) (2 ^ extra) * (2 ^ extra * 2 ^ places) := by
  have positive := Nat.two_pow_pos places
  have known : roundedUnits (1000 * digits * 2 ^ places) 1 =
      nearest (1000 * digits * 2 ^ places) (1 * 2 ^ (extra + places)) * 2 ^ (extra + places) := by
    refine roundedUnits_eq Nat.one_pos ?_ ?_
    · rw [Nat.mul_one, Nat.pow_add, ← Nat.mul_assoc, ← Nat.pow_add]
      exact Nat.mul_le_mul_right _ enough
    · rw [Nat.mul_one, Nat.pow_add, ← Nat.mul_assoc, ← Nat.pow_add]
      exact Nat.mul_lt_mul_of_pos_right few positive
  rw [isLarge.rounded, ← Nat.mul_assoc, known, Nat.one_mul, Nat.pow_add,
    nearest_mul_right positive]

/-- If the thousandfold has ten digits more, it is at least ten digits longer. -/
theorem le_mul_one_of_long
    (isCount : IsCount count)
    (long : 2 ^ 62 ≤ 1000 * digits) :
    2 ^ 62 * 2 ^ places ≤ count * one := by
  have below := isLarge.near.1
  have positive := Nat.two_pow_pos places
  have size := Nat.mul_le_mul_right (2 ^ places) long
  by_contra short
  -- The number of thousandths is then a multiple of `2 ^ 9` steps, and too far away.
  have dvd : 2 ^ (9 + places) ∣ count * one := by
    refine (pow_dvd_spacing ?_).trans isCount.fits.2
    rw [Nat.pow_add]
    linarith
  rw [Nat.pow_add] at dvd
  obtain ⟨steps, written⟩ := dvd
  rw [written] at short below
  have few : steps < 2 ^ 53 := by
    refine Nat.lt_of_mul_lt_mul_left (a := 2 ^ 9 * 2 ^ places) ?_
    linarith
  have whole := Nat.mul_le_mul_left (2 ^ 9 * 2 ^ places) (by omega : steps ≤ 9007199254740991)
  linarith

/-- If the thousandfold has ten digits more, it is rounded to the number of thousandths. -/
theorem thousandfold_of_long
    (isCount : IsCount count)
    (long : 2 ^ 62 ≤ 1000 * digits) :
    roundedUnits (1000 * roundedUnits (count * one) 1000) 1 = count * one ∧ 2 ^ 52 ≤ count := by
  have enough := isLarge.le_mul_one_of_long isCount long
  have known := isLarge.roundedUnits_thousandfold 10 long (by have most := isLarge.most; omega)
  obtain ⟨below, above⟩ := isLarge.near
  have level := isLarge.level
  have positive := Nat.two_pow_pos places
  obtain ⟨steps, written⟩ : 2 ^ 10 * 2 ^ places ∣ count * one := by
    rw [← Nat.pow_add]
    refine (pow_dvd_spacing ?_).trans isCount.fits.2
    rw [Nat.pow_add]
    linarith
  refine ⟨?_, ?_⟩
  · have near : 1000 * digits ≤ 1024 * steps + 500 ∧ 1024 * steps ≤ 1000 * digits + 500 := by
      rw [written] at below above
      refine ⟨Nat.le_of_mul_le_mul_right (c := 2 ^ places) ?_ positive,
        Nat.le_of_mul_le_mul_right (c := 2 ^ places) ?_ positive⟩
      · linarith
      · linarith
    rw [known, written, @nearest_eq _ (2 ^ 10) steps (by omega) (by omega), Nat.mul_comm]
  · have once : one ≤ 2 ^ spread * one := Nat.le_mul_of_pos_left one (Nat.two_pow_pos _)
    refine Nat.le_of_mul_le_mul_right (c := one) ?_ one_pos
    linarith

/-- If the thousandfold has ten digits more, the thousandths are found again. -/
theorem roundThousandths_of_long
    (isCount : IsCount count)
    (long : 2 ^ 62 ≤ 1000 * digits)
    (negative : Bool) :
    roundThousandths (.finite negative _ fits) =
      .ok (ofIntQuotient (signedUnits negative count) 1000) := by
  obtain ⟨known, large⟩ := isLarge.thousandfold_of_long isCount long
  exact roundThousandths_finite known isCount.fits
    (floor?_add_half_of_even large (isCount.even large) _ negative)

/-- If the thousandfold has nine digits more, it is rounded to a number. -/
theorem thousandfold_of_short
    (isCount : IsCount count)
    (short : 1000 * digits < 2 ^ 62) :
    let steps := nearest (1000 * digits) (2 ^ 9)
    roundedUnits (1000 * roundedUnits (count * one) 1000) 1 = steps * (2 ^ 9 * 2 ^ places) ∧
      Fits (steps * (2 ^ 9 * 2 ^ places)) ∧ 2 ^ 52 < steps ∧ steps < 2 ^ 53 ∧
      512 * steps ≤ 1000 * digits + 256 ∧ 1000 * digits ≤ 512 * steps + 256 := by
  intro steps
  have least := isLarge.least
  have known : _ = steps * _ := isLarge.roundedUnits_thousandfold 9 (by omega) short
  obtain ⟨lower, upper⟩ := @nearest_near (1000 * digits) (2 ^ 9) (by decide)
  change 2 * (steps * 2 ^ 9) ≤ _ at lower
  change _ ≤ 2 * (steps * 2 ^ 9) + _ at upper
  refine ⟨known, ⟨?_, ?_⟩, by omega, by omega, by omega, by omega⟩
  · -- The number of thousandths is below the limit, and no power of two is between.
    have room := isCount.fits.1
    have below := isLarge.near.1
    have size := Nat.mul_le_mul_right (2 ^ places) (by omega : 2 ^ 61 + 500 ≤ 1000 * digits)
    have more : 2 ^ (61 + places) < limit := by
      rw [Nat.pow_add]
      linarith
    rw [limit, Nat.pow_lt_pow_iff_right (by decide)] at more
    have bound : 2 ^ (62 + places) ≤ limit := Nat.pow_le_pow_right (by decide) (by omega)
    rw [Nat.pow_add] at bound
    have few := Nat.mul_lt_mul_of_pos_right (by omega : steps * 2 ^ 9 < 2 ^ 62)
      (Nat.two_pow_pos places)
    linarith
  · rw [← known]
    exact spacing_dvd_roundedUnits _ _

omit isLarge in
/-- A thousandth of a rounded thousandfold is rounded to the number that it was made of. -/
theorem roundedUnits_thousandth
    {steps : Nat}
    (least : 2 ^ 52 ≤ digits)
    (most : digits < 2 ^ 53)
    (lower : 512 * steps ≤ 1000 * digits + 256)
    (upper : 1000 * digits ≤ 512 * steps + 256)
    (enough : 2 ^ 52 < steps) :
    roundedUnits (steps * (2 ^ 9 * 2 ^ places)) 1000 = digits * 2 ^ places := by
  have positive := Nat.two_pow_pos places
  have smaller := Nat.mul_le_mul_right (2 ^ places) (by omega : 2 ^ 52 * 1000 ≤ steps * 2 ^ 9)
  have larger := Nat.mul_lt_mul_of_pos_right (by omega : steps * 2 ^ 9 < 2 ^ 53 * 1000) positive
  have divided : roundedUnits (steps * 2 ^ 9 * 2 ^ places) 1000 =
      nearest (steps * 2 ^ 9 * 2 ^ places) (1000 * 2 ^ places) * 2 ^ places :=
    roundedUnits_eq (by decide) (by linarith) (by linarith)
  rw [← Nat.mul_assoc, divided, nearest_mul_right positive,
    @nearest_eq _ 1000 digits (by omega) (by omega)]

/-- If the steps of the thousandfold are even numbers, one of them is found, and a thousandth
of it is the number again. -/
theorem roundThousandths_of_wide
    (isCount : IsCount count)
    (short : 1000 * digits < 2 ^ 62)
    (wide : 2 ≤ spread)
    (negative : Bool) :
    roundThousandths (.finite negative _ fits) = .ok (.finite negative _ fits) := by
  obtain ⟨known, room, enough, few, lower, upper⟩ := isLarge.thousandfold_of_short isCount short
  obtain ⟨rounded, level, least, most⟩ := isLarge
  have again := @roundedUnits_thousandth _ places _ least most lower upper enough
  rw [← rounded] at again
  generalize nearest (1000 * digits) (2 ^ 9) = steps at *
  obtain ⟨double, rfl⟩ : ∃ double, spread = double + 2 := ⟨spread - 2, by omega⟩
  have whole : steps * (2 ^ 9 * 2 ^ places) = steps * 2 ^ (double + 1) * one := by
    have stepwise : 2 ^ 9 * 2 ^ places = 2 ^ (double + 1) * one := by
      rw [Nat.pow_succ] at level
      linarith
    rw [stepwise, Nat.mul_assoc]
  have even : 2 ∣ steps * 2 ^ (double + 1) :=
    (dvd_pow_self 2 (Nat.succ_ne_zero double)).mul_left _
  have large : 2 ^ 52 ≤ steps * 2 ^ (double + 1) :=
    enough.le.trans (Nat.le_mul_of_pos_right steps (Nat.two_pow_pos _))
  rw [whole] at known room again
  rw [roundThousandths_finite known room (floor?_add_half_of_even large even room negative),
    ofIntQuotient_signedUnits (by omega)]
  simp only [ofQuotient, again, fits.1, dif_pos]

/-- If the steps are small, the number of thousandths is even where one half of a step is a
whole number. -/
theorem exists_part
    (isCount : IsCount count)
    (narrow : spread ≤ 1) :
    ∃ part, count = 2 ^ spread * part := by
  rcases Nat.le_one_iff_eq_zero_or_eq_one.mp narrow with rfl | rfl
  · exact Nat.one_dvd count
  · refine isCount.even (Nat.le_of_mul_le_mul_right (c := one) ?_ one_pos)
    have least := isLarge.least
    have level := isLarge.level
    have below := isLarge.near.1
    have size := Nat.mul_le_mul_right (2 ^ places) (by omega : 2 ^ 61 + 500 ≤ 1000 * digits)
    linarith

omit isLarge in
/-- Parts of the thousandths stand next to the digits of the thousandfold. -/
theorem near_part {part : Nat} (isLarge : IsLarge (2 ^ spread * part) digits places spread) :
    1000 * digits ≤ 1024 * part + 500 ∧ 1024 * part ≤ 1000 * digits + 500 := by
  obtain ⟨below, above⟩ := isLarge.near
  have positive := Nat.two_pow_pos places
  have whole : 2 ^ spread * part * one = part * (1024 * 2 ^ places) := by
    rw [isLarge.level]
    ring
  rw [whole] at below above
  refine ⟨Nat.le_of_mul_le_mul_right (c := 2 ^ places) ?_ positive,
    Nat.le_of_mul_le_mul_right (c := 2 ^ places) ?_ positive⟩
  · linarith
  · linarith

/-- If the steps are small, what is found is a number of halves that is rounded up. -/
theorem roundThousandths_of_narrow
    (isCount : IsCount count)
    (short : 1000 * digits < 2 ^ 62)
    (narrow : spread ≤ 1)
    (negative : Bool) :
    roundThousandths (.finite negative _ fits) = .ok (ofIntQuotient
      (2 ^ spread * ((signedUnits negative (nearest (1000 * digits) (2 ^ 9)) + 1) / 2)) 1000) := by
  obtain ⟨known, room, enough, few, -, -⟩ := isLarge.thousandfold_of_short isCount short
  have level := isLarge.level
  generalize nearest (1000 * digits) (2 ^ 9) = steps at *
  refine roundThousandths_finite known room ?_
  rcases Nat.le_one_iff_eq_zero_or_eq_one.mp narrow with rfl | rfl
  · have halves : 2 ^ 9 * 2 ^ places = halfUnits := by
      have known := one_eq_halves
      omega
    simp only [halves]
    rw [floor?_add_half_of_halves (by omega) few, pow_zero, one_mul]
  · have whole : 2 ^ 9 * 2 ^ places = one := by omega
    simp only [whole]
    have sign : (signedUnits negative steps : Int) = steps ∨
        (signedUnits negative steps : Int) = -steps := by
      cases negative with
      | false => exact Or.inl rfl
      | true => exact Or.inr rfl
    rcases Nat.mod_two_eq_zero_or_one steps with even | odd
    · rw [floor?_add_half_of_even enough.le (Nat.dvd_of_mod_eq_zero even)]
      congr 1
      omega
    · rw [floor?_add_half_of_odd enough.le few odd]
      congr 1
      omega

end IsLarge

/-! ## Numbers that drift -/

/-- A number that is not kept when it is rounded to thousandths again. It has a magnitude from
`2 ^ 42` to below `1.024 * 2 ^ 42`, or from `2 ^ 43` to below `1.024 * 2 ^ 43`, and the rest of
its thousandfold by one, or by two, is more than a fourth and less than a half of that. -/
def Drifts : Binary64 → Prop
  | .finite negative units _ => ∃ step ∈ [1, 2],
      2 ^ 42 * (step * one) ≤ units ∧ 1000 * units < 2 ^ 52 * (step * one) ∧
        let rest := signedUnits negative (1000 * units) % (step * one : Nat)
        (step * one : Nat) < 4 * rest ∧ 2 * rest < (step * one : Nat)
  | _ => False

instance : DecidablePred Drifts := fun value => by
  unfold Drifts
  split <;> infer_instance

/-- Halves of a step, rounded up, are the thousandths again, or one more. -/
theorem halves_of_nearest
    {digits part : Nat}
    (below : digits ≤ 1024 * part + 500)
    (above : 1024 * part ≤ digits + 500)
    (negative : Bool) :
    (signedUnits negative (nearest digits (2 ^ 9)) + 1) / 2 =
      if 256 < signedUnits negative digits % 1024 ∧ signedUnits negative digits % 1024 < 512
      then signedUnits negative part + 1 else signedUnits negative part := by
  have halves : (nearest digits (2 ^ 9) = 2 * part ∧
        digits ≤ 1024 * part + 256 ∧ 1024 * part ≤ digits + 256) ∨
      (nearest digits (2 ^ 9) = 2 * part + 1 ∧ 1024 * part + 256 < digits) ∨
        (nearest digits (2 ^ 9) + 1 = 2 * part ∧ digits + 256 < 1024 * part) := by
    simp only [nearest]
    split_ifs <;> omega
  generalize nearest digits (2 ^ 9) = steps at halves ⊢
  cases negative with
  | false =>
      simp only [signedUnits, Bool.false_eq_true, if_false]
      split <;> omega
  | true =>
      simp only [signedUnits, if_true]
      split <;> omega

theorem signedUnits_mul (negative : Bool) (units factor : Nat) :
    signedUnits negative (units * factor) = signedUnits negative units * factor := by
  cases negative with
  | false => exact Int.natCast_mul units factor
  | true =>
      simp only [signedUnits, if_true]
      rw [Int.natCast_mul, Int.neg_mul]

/-- Digits behind a number are no part of its rest. -/
theorem signedUnits_emod_mul
    {step : Nat}
    (positive : 0 < step)
    (negative : Bool)
    (units divisor : Nat) :
    signedUnits negative (units * step) % (divisor * step : Nat) =
      signedUnits negative units % divisor * step := by
  rw [signedUnits_mul, Int.natCast_mul, Int.mul_comm _ (step : Int),
    Int.mul_comm _ (step : Int), Int.mul_emod_mul_of_pos _ _ (Int.natCast_pos.mpr positive),
    Int.mul_comm]

/-- Between a fourth and a half of 1024 steps. -/
theorem between_steps_iff
    {step : Nat}
    (positive : 0 < step)
    (rest : Int) :
    ((1024 * step : Nat) < 4 * (rest * step) ∧ 2 * (rest * step) < (1024 * step : Nat)) ↔
      256 < rest ∧ rest < 512 := by
  have less (left right : Int) : left * step < right * step ↔ left < right :=
    Int.mul_lt_mul_right (Int.natCast_pos.mpr positive)
  rw [Int.natCast_mul, ← less 256, ← less rest]
  omega

namespace IsLarge

variable {count digits places spread : Nat} {fits : Fits (roundedUnits (count * one) 1000)}
  (isLarge : IsLarge count digits places spread)
include isLarge

/-- Where a number can drift, the steps are small and its thousandfold has nine digits more. -/
theorem narrow_of_bounds
    {step : Nat}
    (isStep : step = 1 ∨ step = 2)
    (least : 2 ^ 42 * (step * one) ≤ roundedUnits (count * one) 1000)
    (most : 1000 * roundedUnits (count * one) 1000 < 2 ^ 52 * (step * one)) :
    2 ^ spread = step ∧ 1000 * digits < 2 ^ 62 := by
  obtain ⟨rounded, level, enough, few⟩ := isLarge
  have positive := one_pos
  rw [rounded] at least most
  have scaled : 1024 * (digits * 2 ^ places) = digits * (2 ^ spread * one) := by
    rw [← level]
    ring
  have smaller := Nat.mul_le_mul_right (2 ^ spread * one) enough
  have larger := Nat.mul_lt_mul_of_pos_right few
    (Nat.mul_pos (Nat.two_pow_pos spread) positive)
  have lower : step < 2 * 2 ^ spread := by
    refine Nat.lt_of_mul_lt_mul_right (a := one) ?_
    linarith
  have upper : 1000 * 2 ^ spread < 1024 * step := by
    refine Nat.lt_of_mul_lt_mul_right (a := one) ?_
    linarith
  have same : 2 ^ spread = step := by omega
  refine ⟨same, Nat.lt_of_mul_lt_mul_right (a := 2 ^ places) ?_⟩
  rw [same] at level
  linarith

/-- A number drifts if the rest of its digits lies between a fourth and a half. -/
theorem drifts_iff (negative : Bool) :
    Drifts (.finite negative _ fits) ↔ spread ≤ 1 ∧ 1000 * digits < 2 ^ 62 ∧
      256 < signedUnits negative (1000 * digits) % 1024 ∧
      signedUnits negative (1000 * digits) % 1024 < 512 := by
  have positive := Nat.two_pow_pos places
  have level := isLarge.level
  have rest : signedUnits negative (1000 * roundedUnits (count * one) 1000) %
      (2 ^ spread * one : Nat) =
        signedUnits negative (1000 * digits) % 1024 * (2 ^ places : Nat) := by
    rw [isLarge.rounded, ← level, ← Nat.mul_assoc, signedUnits_emod_mul positive]
    rfl
  have inside := between_steps_iff positive (signedUnits negative (1000 * digits) % 1024)
  rw [level] at inside
  constructor
  · rintro ⟨step, isStep, least, most, rests⟩
    have isStep : step = 1 ∨ step = 2 := by simpa using isStep
    obtain ⟨rfl, short⟩ := isLarge.narrow_of_bounds isStep least most
    rw [rest] at rests
    refine ⟨?_, short, inside.mp rests⟩
    by_contra wide
    have four : 2 ^ 2 ≤ 2 ^ spread := Nat.pow_le_pow_right (by decide) (by omega)
    omega
  · rintro ⟨narrow, short, rests⟩
    refine ⟨2 ^ spread, ?_, ?_, ?_, ?_⟩
    · rcases Nat.le_one_iff_eq_zero_or_eq_one.mp narrow with rfl | rfl <;> decide
    · have enough := Nat.mul_le_mul_right (2 ^ places) isLarge.least
      rw [isLarge.rounded, ← level]
      linarith
    · have few := Nat.mul_lt_mul_of_pos_right short (Nat.two_pow_pos places)
      rw [isLarge.rounded, ← level]
      linarith
    · rw [rest]
      exact inside.mpr rests

/-- A number of thousandths that is one part more is rounded to another number. -/
theorem ofIntQuotient_ne
    {part : Nat}
    {negative : Bool}
    (written : count = 2 ^ spread * part)
    (less : 256 < signedUnits negative (1000 * digits) % 1024)
    (more : signedUnits negative (1000 * digits) % 1024 < 512) :
    ofIntQuotient (2 ^ spread * (signedUnits negative part + 1)) 1000 ≠
      .finite negative _ fits := by
  intro same
  subst written
  have magnitude : (2 ^ spread * (signedUnits negative part + 1)).natAbs =
      2 ^ spread * (signedUnits negative part + 1).natAbs := by
    rw [Int.natAbs_mul, Int.natAbs_pow]
    rfl
  have other : roundedUnits (2 ^ spread * (signedUnits negative part + 1).natAbs * one) 1000 =
      digits * 2 ^ places := by
    rw [← isLarge.rounded, ← magnitude]
    unfold ofIntQuotient ofQuotient at same
    split at same
    · exact (Binary64.finite.inj same).2
    · cases same
  have close := isLarge.near_part
  have closer := near_part ⟨other, isLarge.level, isLarge.least, isLarge.most⟩
  cases negative with
  | false =>
      simp only [signedUnits, Bool.false_eq_true, if_false] at *
      omega
  | true =>
      simp only [signedUnits, if_true] at *
      omega

/-- A large number is kept unless it drifts, and then it is replaced. -/
theorem roundThousandths_cases
    (isCount : IsCount count)
    (negative : Bool) :
    ∃ other, roundThousandths (.finite negative _ fits) = .ok other ∧
      (other = .finite negative _ fits ↔ ¬ Drifts (.finite negative _ fits)) := by
  have value : ofIntQuotient (signedUnits negative count) 1000 = .finite negative _ fits := by
    rw [ofIntQuotient_signedUnits isLarge.pos, ofQuotient_of_lt _ fits.1]
  rw [isLarge.drifts_iff]
  by_cases short : 1000 * digits < 2 ^ 62
  · by_cases narrow : spread ≤ 1
    · obtain ⟨part, written⟩ := isLarge.exists_part isCount narrow
      have close : IsLarge (2 ^ spread * part) digits places spread := written ▸ isLarge
      have found := @roundThousandths_of_narrow _ _ _ _ fits isLarge isCount short narrow negative
      rw [halves_of_nearest close.near_part.1 close.near_part.2] at found
      refine ⟨_, found, ?_⟩
      split
      next drifts =>
        simp only [isLarge.ofIntQuotient_ne written drifts.1 drifts.2, narrow, short, drifts,
          and_self, not_true_eq_false]
      next stays =>
        have whole : 2 ^ spread * signedUnits negative part = signedUnits negative count := by
          rw [written, Nat.mul_comm, signedUnits_mul, Int.mul_comm, Int.natCast_pow]
          rfl
        simp only [whole, value, stays, and_false, not_false_eq_true]
    · exact ⟨_, isLarge.roundThousandths_of_wide isCount short (by omega) negative,
        by simp [narrow]⟩
  · refine ⟨_, isLarge.roundThousandths_of_long isCount (by omega) negative, ?_⟩
    simp only [value, short, false_and, and_false, not_false_eq_true]

end IsLarge

/-! ## Rounded numbers -/

theorem not_drifts_of_small
    {negative : Bool}
    {units : Nat}
    {fits : Fits units}
    (small : units < 2 ^ 42 * one) :
    ¬ Drifts (.finite negative units fits) := by
  rintro ⟨step, isStep, least, -⟩
  have positive : 0 < step := by
    rcases List.mem_pair.mp isStep with rfl | rfl <;> decide
  have once : one ≤ step * one := Nat.le_mul_of_pos_left one positive
  omega

/-- A rounded number is zero, or the rounding of a number of thousandths that can be found. -/
theorem IsRounded.exists_count {rounded : Binary64} (isRounded : IsRounded rounded) :
    rounded = 0 ∨ ∃ negative count fits, 0 < count ∧ IsCount count ∧
      rounded = .finite negative (roundedUnits (count * one) 1000) fits := by
  obtain ⟨value, thousandths, fits, floor, rfl⟩ := isRounded.exists_thousandths
  rcases eq_or_ne thousandths 0 with rfl | nonzero
  · refine Or.inl ?_
    rw [zero_eq]
    congr 1
    exact (congrArg (roundedUnits · 1000) (Nat.zero_mul one)).trans (roundedUnits_zero 1000)
  · refine Or.inr ⟨_, _, fits, Int.natAbs_pos.mpr nonzero, ?_, rfl⟩
    generalize value * 1000 = thousandfold at floor
    cases thousandfold with
    | nan => cases floor
    | infinite negative =>
        obtain ⟨halfFits, known⟩ := exists_half_finite
        rw [known] at floor
        cases floor
    | finite negative units fits => exact isCount_of_floor? floor

/-- A rounded number can be rounded again, and it is kept exactly if it does not drift. -/
theorem IsRounded.roundThousandths_cases {rounded : Binary64} (isRounded : IsRounded rounded) :
    ∃ other, roundThousandths rounded = .ok other ∧ (other = rounded ↔ ¬ Drifts rounded) := by
  rcases isRounded.exists_count with rfl | ⟨negative, count, fits, positive, isCount, rfl⟩
  · refine ⟨0, by decide +kernel, iff_of_true rfl ?_⟩
    rw [zero_eq]
    exact not_drifts_of_small (Nat.mul_pos (by decide) one_pos)
  · rcases Nat.lt_or_ge (roundedUnits (count * one) 1000) (2 ^ 42 * one) with small | large
    · refine ⟨_, roundThousandths_of_small positive small negative,
        iff_of_true ?_ (not_drifts_of_small small)⟩
      rw [ofIntQuotient_signedUnits positive, ofQuotient_of_lt _ fits.1]
    · obtain ⟨digits, places, spread, isLarge⟩ := exists_isLarge large
      exact isLarge.roundThousandths_cases isCount negative

end Binary64
end Joinery
