import Joinery.Proofs.Binary64.ReadBack

/-!
# Sums with one half

Rounding to thousandths adds one half and takes the floor. Where the sum is not exact, it is
rounded itself. Below `2 ^ 52` the floor is still the number next to the one that was shifted;
above that, a tie goes to the even neighbour, so the floor of a sum with one half is even.
-/

namespace Joinery
namespace Binary64

/-! ## Floors of sums with one half -/

theorem roundedUnits_self {units : Nat} (exact : spacing units ∣ units) :
    roundedUnits units 1 = units := by
  have rounded := roundedUnits_of_dvd Nat.one_pos exact
  rwa [Nat.mul_one] at rounded

theorem add_one_mul_one (count : Nat) : (count + 1) * one = count * one + one :=
  Nat.succ_mul count one

theorem div_one_eq
    {units count : Nat}
    (least : count * one ≤ units)
    (most : units < count * one + one) :
    units / one = count :=
  Nat.div_eq_of_lt_le least (by rwa [add_one_mul_one])

section Floor

variable {count numerator : Nat}

theorem floor?_ofQuotient_false
    (below : roundedUnits numerator 1 < limit)
    (least : count * one ≤ roundedUnits numerator 1)
    (most : roundedUnits numerator 1 < count * one + one) :
    (ofQuotient false numerator 1).floor? = some (count : Int) := by
  rw [ofQuotient_of_lt false below, floor?, signedUnits, if_neg Bool.false_ne_true,
    Int.fdiv_eq_ediv_of_nonneg _ (Int.natCast_nonneg one), ← Int.natCast_ediv,
    div_one_eq least most]

theorem floor?_ofQuotient_true
    (below : roundedUnits numerator 1 < limit)
    (least : count * one < roundedUnits numerator 1 + one)
    (most : roundedUnits numerator 1 ≤ count * one) :
    (ofQuotient true numerator 1).floor? = some (-count : Int) := by
  have positive : (0 : Int) < one := Int.natCast_pos.mpr one_pos
  rw [ofQuotient_of_lt true below, floor?, signedUnits, if_pos rfl,
    Int.fdiv_eq_ediv_of_nonneg _ (Int.natCast_nonneg one)]
  refine congrArg _ (le_antisymm ?_ ?_)
  · refine Int.lt_add_one_iff.mp (Int.ediv_lt_of_lt_mul positive ?_)
    rw [Int.add_mul, Int.neg_mul, Int.one_mul]
    omega
  · refine Int.le_ediv_of_mul_le positive ?_
    rw [Int.neg_mul]
    omega

end Floor

section Sums

variable {left right : Nat} {leftFits : Fits left} {rightFits : Fits right}

theorem finite_add_finite (positive : 0 < right) :
    .finite false left leftFits + .finite false right rightFits =
      ofQuotient false (left + right) 1 := by
  change add _ _ = _
  have sum : signedUnits false left + signedUnits false right = (left + right : Nat) := by
    simp [signedUnits]
  simp only [add, sum, Int.natAbs_natCast]
  rw [if_neg (by omega), decide_eq_false (by omega)]

theorem neg_finite_add_finite (less : right < left) :
    .finite true left leftFits + .finite false right rightFits =
      ofQuotient true (left - right) 1 := by
  change add _ _ = _
  have sum : signedUnits true left + signedUnits false right = -((left - right : Nat) : Int) := by
    simp only [signedUnits, if_true, Bool.false_eq_true, if_false]
    omega
  simp only [add, sum, Int.natAbs_neg, Int.natAbs_natCast]
  rw [if_neg (by omega), decide_eq_true (by omega)]

end Sums

section AddHalf

variable {units count : Nat} {fits : Fits units}

theorem floor?_add_half
    (below : roundedUnits (units + halfUnits) 1 < limit)
    (least : count * one ≤ roundedUnits (units + halfUnits) 1)
    (most : roundedUnits (units + halfUnits) 1 < count * one + one) :
    (.finite false units fits + half).floor? = some (count : Int) := by
  obtain ⟨halfFits, known⟩ := exists_half_finite
  rw [known, finite_add_finite halfUnits_pos]
  exact floor?_ofQuotient_false below least most

theorem floor?_neg_add_half
    (below : roundedUnits (units - halfUnits) 1 < limit)
    (above : halfUnits < units)
    (least : count * one < roundedUnits (units - halfUnits) 1 + one)
    (most : roundedUnits (units - halfUnits) 1 ≤ count * one) :
    (.finite true units fits + half).floor? = some (-count : Int) := by
  obtain ⟨halfFits, known⟩ := exists_half_finite
  rw [known, neg_finite_add_finite above]
  exact floor?_ofQuotient_true below least most

/-- Whole numbers and their halves are numbers, up to `2 ^ 53`. -/
theorem fits_whole (small : count ≤ 2 ^ 53) : Fits (count * one) :=
  fits_shifted small (Nat.le_refl _)

theorem fits_halves (small : count ≤ 2 ^ 53) : Fits (count * halfUnits) :=
  fits_shifted small (Nat.sub_le _ _)

/-- Below `2 ^ 52`, numbers have places for halves. -/
theorem spacing_dvd_half (small : units < 2 ^ 52 * one) : spacing units ∣ halfUnits := by
  refine spacing_dvd_of_lt ?_
  have halves := one_eq_halves
  change units < 2 ^ 53 * halfUnits
  omega

/-- Around a whole number, the sum with one half is rounded to less than the next one. -/
theorem roundedUnits_add_half_of_near
    (small : count < 2 ^ 52)
    (positive : 0 < count)
    (above : count * one < units + halfUnits)
    (below : units < count * one + halfUnits)
    (exact : spacing units ∣ units)
    (exactHalf : spacing units ∣ halfUnits) :
    count * one ≤ roundedUnits (units + halfUnits) 1 ∧
      roundedUnits (units + halfUnits) 1 < count * one + one := by
  have halves := one_eq_halves
  have once : one ≤ count * one := Nat.le_mul_of_pos_left one positive
  rcases Nat.lt_or_ge units (count * one) with less | enough
  · have middleExact := (@fits_halves (2 * count + 1) (by omega)).2
    have middle : (2 * count + 1) * halfUnits = count * one + halfUnits := by
      rw [halves]
      ring
    rw [middle] at middleExact
    refine ⟨le_roundedUnits_of_le Nat.one_pos (fits_whole (by omega)).2 (by omega), ?_⟩
    have upper :=
      @roundedUnits_le_of_le (units + halfUnits) 1 _ Nat.one_pos middleExact (by omega)
    omega
  · -- Both lie between the same whole numbers, so the sum is exact.
    have same : units / one = (units + halfUnits) / one := by
      rw [@div_one_eq units count enough (by omega),
        @div_one_eq (units + halfUnits) count (by omega) (by omega)]
    have sumExact : spacing (units + halfUnits) ∣ units + halfUnits := by
      rw [← spacing_eq_of_div_eq same (by omega)]
      exact Nat.dvd_add exact exactHalf
    rw [roundedUnits_self sumExact]
    omega

/-- Near a whole number, the floor of the sum with one half is the whole number. -/
theorem floor?_add_half_of_near
    (positive : 0 < count)
    (small : count < 2 ^ 52)
    (above : count * one < units + halfUnits)
    (below : units < count * one + halfUnits)
    (negative : Bool) :
    (.finite negative units fits + half).floor? = some (signedUnits negative count) := by
  have halves := one_eq_halves
  have once : one ≤ count * one := Nat.le_mul_of_pos_left one positive
  have next := add_one_mul_one count
  have room : (count + 1) * one < limit := (fits_whole (by omega)).1
  have exactHalf : spacing units ∣ halfUnits := by
    have bound := Nat.mul_le_mul_right one (Nat.succ_le_of_lt small)
    rw [add_one_mul_one] at bound
    exact spacing_dvd_half (by omega)
  cases negative with
  | false =>
      have rounded := roundedUnits_add_half_of_near small positive above below fits.2 exactHalf
      exact floor?_add_half (by omega) rounded.1 rounded.2
  | true =>
      have exact : spacing (units - halfUnits) ∣ units - halfUnits :=
        (spacing_dvd_spacing (Nat.sub_le _ _)).trans (Nat.dvd_sub fits.2 exactHalf)
      have same := roundedUnits_self exact
      exact floor?_neg_add_half (by omega) (by omega) (by omega) (by omega)

/-- The middle behind a large whole number is rounded to the even one. -/
theorem roundedUnits_middle
    (least : 2 ^ 52 ≤ count)
    (most : count < 2 ^ 53) :
    roundedUnits (count * one + halfUnits) 1 = (count + count % 2) * one := by
  have halves := one_eq_halves
  have positive := halfUnits_pos
  have lower := Nat.mul_le_mul_right one least
  have upper := Nat.mul_le_mul_right one (Nat.succ_le_of_lt most)
  rw [add_one_mul_one] at upper
  have known : roundedUnits (count * one + halfUnits) 1 =
      nearest (count * one + halfUnits) (1 * one) * one :=
    @roundedUnits_eq _ 1 unitPlaces Nat.one_pos
      (by change 2 ^ 52 * one * 1 ≤ _; omega) (by change _ < 2 ^ 53 * one * 1; omega)
  rw [known, Nat.one_mul]
  congr 1
  rw [halves]
  exact nearest_middle positive

/-- Large numbers are whole numbers, and larger ones are even. -/
theorem shifted_one_dvd_spacing
    {places : Nat}
    (large : 2 ^ 52 * (2 ^ places * one) ≤ units) :
    2 ^ places * one ∣ spacing units := by
  have shifted : 2 ^ places * one = 2 ^ (places + unitPlaces) := (Nat.pow_add ..).symm
  rw [shifted] at large ⊢
  exact pow_dvd_spacing large

/-- One half is lost next to a number of at least `2 ^ 53`. -/
theorem roundedUnits_of_huge
    {numerator : Nat}
    (large : 2 ^ 53 * one ≤ numerator)
    (exact : spacing numerator ∣ units)
    (below : numerator ≤ units + halfUnits)
    (above : units ≤ numerator + halfUnits) :
    roundedUnits numerator 1 = units := by
  have wide := Nat.le_of_dvd (spacing_pos numerator)
    (@shifted_one_dvd_spacing numerator 1 (by omega))
  have halves := one_eq_halves
  have positive := halfUnits_pos
  exact roundedUnits_eq_of_near exact (by omega) (by omega)

theorem roundedUnits_add_half_of_even
    (large : 2 ^ 52 ≤ count)
    (even : 2 ∣ count)
    (exact : spacing (count * one) ∣ count * one) :
    roundedUnits (count * one + halfUnits) 1 = count * one := by
  have halves := one_eq_halves
  have positive := halfUnits_pos
  have once := Nat.mul_le_mul_right one large
  rcases Nat.lt_or_ge count (2 ^ 53) with less | more
  · rw [roundedUnits_middle large less, Nat.mod_eq_zero_of_dvd even, Nat.add_zero]
  · have huge := Nat.mul_le_mul_right one more
    have same : count * one / one = (count * one + halfUnits) / one := by
      rw [Nat.mul_div_cancel _ one_pos,
        @div_one_eq (count * one + halfUnits) count (by omega) (by omega)]
    rw [spacing_eq_of_div_eq same (by omega)] at exact
    exact roundedUnits_of_huge (by omega) exact (by omega) (by omega)

/-- One half below a large number that is even is rounded to the number, or is a number below
`2 ^ 52`. -/
theorem roundedUnits_sub_half_of_even
    (large : 2 ^ 52 ≤ count)
    (even : 2 ∣ count)
    (exact : spacing (count * one) ∣ count * one) :
    roundedUnits (count * one - halfUnits) 1 = count * one ∨
      roundedUnits (count * one - halfUnits) 1 = count * one - halfUnits := by
  have halves := one_eq_halves
  have positive := halfUnits_pos
  have narrower : spacing (count * one - halfUnits) ∣ count * one :=
    (spacing_dvd_spacing (Nat.sub_le _ _)).trans exact
  rcases Nat.lt_or_eq_of_le large with more | rfl
  · refine Or.inl ?_
    obtain ⟨before, rfl⟩ : ∃ before, count = before + 1 := ⟨count - 1, by omega⟩
    rcases Nat.lt_or_ge before (2 ^ 53) with less | huge
    · have middle : (before + 1) * one - halfUnits = before * one + halfUnits := by
        rw [add_one_mul_one]
        omega
      have odd : before % 2 = 1 := by omega
      rw [middle, roundedUnits_middle (by omega) less, odd]
    · have larger := Nat.mul_le_mul_right one huge
      rw [add_one_mul_one] at narrower ⊢
      exact roundedUnits_of_huge (by omega) narrower (by omega) (by omega)
  · exact Or.inr (roundedUnits_self (Nat.dvd_sub narrower (spacing_dvd_half (by omega))))

/-- The floor of the sum with one half of a large number that is even is the number. -/
theorem floor?_add_half_of_even
    (large : 2 ^ 52 ≤ count)
    (even : 2 ∣ count)
    (fits : Fits (count * one))
    (negative : Bool) :
    (.finite negative (count * one) fits + half).floor? = some (signedUnits negative count) := by
  have halves := one_eq_halves
  have positive := halfUnits_pos
  have once := Nat.mul_le_mul_right one large
  have below := fits.1
  cases negative with
  | false =>
      have rounded := roundedUnits_add_half_of_even large even fits.2
      exact floor?_add_half (by omega) (by omega) (by omega)
  | true =>
      have rounded := roundedUnits_sub_half_of_even large even fits.2
      exact floor?_neg_add_half (by omega) (by omega) (by omega) (by omega)

/-- The floor of the sum with one half of a large number that is odd is the even number
behind it. -/
theorem floor?_add_half_of_odd
    (least : 2 ^ 52 ≤ count)
    (most : count < 2 ^ 53)
    (odd : count % 2 = 1)
    (fits : Fits (count * one))
    (negative : Bool) :
    (.finite negative (count * one) fits + half).floor? =
      some (signedUnits negative count + 1) := by
  have halves := one_eq_halves
  have positive := halfUnits_pos
  have once := Nat.mul_le_mul_right one least
  cases negative with
  | false =>
      have rounded := roundedUnits_middle least most
      have room := (@fits_whole (count + 1) (by omega)).1
      have next := add_one_mul_one count
      rw [odd] at rounded
      exact @floor?_add_half _ (count + 1) fits (by omega) (by omega) (by omega)
  | true =>
      obtain ⟨before, rfl⟩ : ∃ before, count = before + 1 := ⟨count - 1, by omega⟩
      have middle : (before + 1) * one - halfUnits = before * one + halfUnits := by
        rw [add_one_mul_one]
        omega
      have even : before % 2 = 0 := by omega
      have rounded := @roundedUnits_middle before (by omega) (by omega)
      rw [even, Nat.add_zero before, ← middle] at rounded
      have next := add_one_mul_one before
      have room := fits.1
      have found := @floor?_neg_add_half _ before fits (by omega) (by omega) (by omega) (by omega)
      rw [found]
      simp [signedUnits]

/-- Halves as whole numbers and at most one half. -/
theorem mul_half_eq (number : Nat) :
    number * halfUnits = number / 2 * one + number % 2 * halfUnits ∧
      number % 2 * halfUnits ≤ halfUnits := by
  constructor
  · rw [one_eq_halves, Nat.mul_left_comm, ← Nat.mul_assoc, ← Nat.add_mul, Nat.mul_comm 2,
      Nat.div_add_mod']
  · calc
      number % 2 * halfUnits ≤ 1 * halfUnits := Nat.mul_le_mul_right halfUnits (by omega)
      _ = halfUnits := Nat.one_mul halfUnits

/-- The floor of the sum with one half of a number of halves. -/
theorem floor?_add_half_of_halves
    (least : 2 ≤ count)
    (most : count < 2 ^ 53)
    (fits : Fits (count * halfUnits))
    (negative : Bool) :
    (.finite negative (count * halfUnits) fits + half).floor? =
      some ((signedUnits negative count + 1) / 2) := by
  have halves := one_eq_halves
  have positive := halfUnits_pos
  have next (number : Nat) : (number + 1) * halfUnits = number * halfUnits + halfUnits :=
    Nat.succ_mul number halfUnits
  cases negative with
  | false =>
      have nextFits := @fits_halves (count + 1) (by omega)
      have rounded := roundedUnits_self nextFits.2
      have room := nextFits.1
      obtain ⟨split, small⟩ := mul_half_eq (count + 1)
      rw [next] at rounded room split
      have found := @floor?_add_half _ ((count + 1) / 2) fits (by omega) (by omega) (by omega)
      rw [found, signedUnits, if_neg Bool.false_ne_true, Int.natCast_ediv]
      rfl
  | true =>
      obtain ⟨before, rfl⟩ : ∃ before, count = before + 1 := ⟨count - 1, by omega⟩
      have lessFits := @fits_halves before (by omega)
      have rounded := roundedUnits_self lessFits.2
      have room := lessFits.1
      have less : (before + 1) * halfUnits - halfUnits = before * halfUnits := by
        rw [next, Nat.add_sub_cancel]
      obtain ⟨split, small⟩ := mul_half_eq (before + 1)
      have larger := next before
      have several : halfUnits ≤ before * halfUnits := Nat.le_mul_of_pos_left _ (by omega)
      rw [← less] at rounded room
      have found := @floor?_neg_add_half _ ((before + 1) / 2) fits (by omega) (by omega)
        (by omega) (by omega)
      rw [found, signedUnits, if_pos rfl]
      congr 1
      omega

end AddHalf

/-! ## Numbers of thousandths -/

theorem Within.natAbs_le_of_floor?
    {bound : Nat}
    {value : Binary64}
    {floor : Int}
    (within : Within bound value)
    (found : value.floor? = some floor) :
    floor.natAbs ≤ bound := by
  cases value with
  | nan => cases found
  | infinite negative => cases found
  | finite negative units fits =>
      have positive : (0 : Int) < one := Int.natCast_pos.mpr one_pos
      have magnitude := natAbs_signedUnits negative units
      have most : (units : Int) ≤ bound * one := by exact_mod_cast within
      obtain rfl := Option.some.inj found
      rw [Int.fdiv_eq_ediv_of_nonneg _ positive.le]
      have lower : -(bound : Int) ≤ signedUnits negative units / one :=
        Int.le_ediv_of_mul_le positive (by rw [Int.neg_mul]; omega)
      have upper : signedUnits negative units / one < (bound : Int) + 1 :=
        Int.ediv_lt_of_lt_mul positive (by rw [Int.add_mul, Int.one_mul]; omega)
      omega

/-- A sum is within what its terms are within together, if that is a number. -/
theorem within_finite_add_finite
    {bound left right : Nat}
    {leftFits : Fits left}
    {rightFits : Fits right}
    (fits : Fits (bound * one))
    (small : left + right ≤ bound * one)
    (leftNegative rightNegative : Bool) :
    Within bound (.finite leftNegative left leftFits + .finite rightNegative right rightFits) := by
  change Within bound (add _ _)
  have triangle := Int.natAbs_add_le (signedUnits leftNegative left)
    (signedUnits rightNegative right)
  rw [natAbs_signedUnits, natAbs_signedUnits] at triangle
  simp only [add]
  generalize signedUnits leftNegative left + signedUnits rightNegative right = sum at triangle
  have rounded := @roundedUnits_le_of_le sum.natAbs 1 _ Nat.one_pos fits.2 (by omega)
  split
  · exact Nat.zero_le _
  · rw [ofQuotient_of_lt _ (rounded.trans_lt fits.1)]
    exact rounded

/-- A number of thousandths that rounding can find. -/
structure IsCount (count : Nat) : Prop where
  fits : Fits (count * one)
  even : 2 ^ 52 ≤ count → 2 ∣ count

theorem isCount_of_le {count : Nat} (small : count ≤ 2 ^ 52) : IsCount count :=
  ⟨fits_whole (by omega), by
    intro large
    obtain rfl := Nat.le_antisymm small large
    exact ⟨2 ^ 51, rfl⟩⟩

/-- The numbers below `2 ^ 52` are at least one half below. -/
theorem add_half_le_of_lt
    {units : Nat}
    (exact : spacing units ∣ units)
    (small : units < 2 ^ 52 * one) :
    units + halfUnits ≤ 2 ^ 52 * one := by
  have halves := one_eq_halves
  by_contra near
  have spaced : spacing units = halfUnits :=
    spacing_eq (by change 2 ^ 52 * halfUnits ≤ units; omega)
      (by change units < 2 ^ 53 * halfUnits; omega)
  obtain ⟨count, written⟩ := exact
  rw [spaced] at written
  have few : count < 2 ^ 53 := by
    refine Nat.lt_of_mul_lt_mul_left (a := halfUnits) ?_
    omega
  have whole := Nat.mul_le_mul_left halfUnits (Nat.le_sub_one_of_lt few)
  omega

/-- Whole numbers from `2 ^ 53` on are even. -/
theorem even_of_huge
    {count : Nat}
    (huge : 2 ^ 53 ≤ count)
    (exact : spacing (count * one) ∣ count * one) :
    2 ∣ count := by
  have larger := Nat.mul_le_mul_right one huge
  have twice := (@shifted_one_dvd_spacing _ 1 (by omega)).trans exact
  exact Nat.dvd_of_mul_dvd_mul_right one_pos twice

/-- The sum of a number with one half is below `2 ^ 52`, or its floor is even. -/
theorem isCount_of_floor?
    {negative : Bool}
    {units : Nat}
    {fits : Fits units}
    {floor : Int}
    (found : (.finite negative units fits + half).floor? = some floor) :
    IsCount floor.natAbs := by
  have halves := one_eq_halves
  have positive := halfUnits_pos
  rcases Nat.lt_or_ge units (2 ^ 52 * one) with small | large
  · have room := add_half_le_of_lt fits.2 small
    obtain ⟨halfFits, known⟩ := exists_half_finite
    rw [known] at found
    have within := @within_finite_add_finite _ _ _ fits halfFits (fits_whole (by decide)) room
      negative false
    exact isCount_of_le (within.natAbs_le_of_floor? found)
  · have whole : one ∣ units := by
      have dvd := @shifted_one_dvd_spacing units 0 (by rwa [Nat.pow_zero, Nat.one_mul])
      rw [Nat.pow_zero, Nat.one_mul] at dvd
      exact dvd.trans fits.2
    obtain ⟨count, written⟩ := whole
    rw [Nat.mul_comm] at written
    subst written
    have least := Nat.le_of_mul_le_mul_right large one_pos
    rcases Nat.mod_two_eq_zero_or_one count with even | odd
    · rw [floor?_add_half_of_even least (Nat.dvd_of_mod_eq_zero even)] at found
      rw [← Option.some.inj found, natAbs_signedUnits]
      exact ⟨fits, fun _ => Nat.dvd_of_mod_eq_zero even⟩
    · have most : count < 2 ^ 53 := by
        by_contra huge
        have even := even_of_huge (Nat.not_lt.mp huge) fits.2
        omega
      rw [floor?_add_half_of_odd least most odd] at found
      rw [← Option.some.inj found]
      have near : (signedUnits negative count + 1).natAbs = count + 1 ∨
          (signedUnits negative count + 1).natAbs = count - 1 := by
        cases negative with
        | false => exact Or.inl rfl
        | true =>
            simp only [signedUnits, if_true]
            omega
      exact ⟨fits_whole (by omega), fun _ => by omega⟩

end Binary64
end Joinery
