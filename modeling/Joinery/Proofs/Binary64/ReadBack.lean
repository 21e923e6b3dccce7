import Joinery.Proofs.Binary64.PlainText
import Joinery.Proofs.Binary64.Sign

/-!
# Reading back plain text

Plain text is a numeral for the decimal number that it was written for, and it reads back as
the number itself unless it was cut to 15 places. A number that was rounded to thousandths is
never that small.
-/

namespace Joinery
namespace Binary64

/-- What reads back as a count of units has no minus sign. -/
theorem ofDecimal_of_readsBack
    {units : Nat}
    {decimal : Decimal}
    (fits : Fits units)
    (reads : ReadsBack units decimal) :
    ofDecimal false decimal = .finite false units fits := by
  have known : decimal.exponent = decimal.exponent.toNat - (-decimal.exponent).toNat := by omega
  rw [ReadsBack, ofDecimal, ofScientific_eq known] at reads
  rw [ofDecimal, ofScientific_eq known]
  generalize decimal.digits * 10 ^ decimal.exponent.toNat * one = numerator at reads ⊢
  by_cases below : roundedUnits numerator (10 ^ (-decimal.exponent).toNat) < limit
  · rw [ofQuotient_of_lt false below] at reads ⊢
    subst reads
    rfl
  · rw [ofQuotient_of_not_lt false below] at reads
    exact reads.elim

/-! ## Legible numbers -/

section Legible

variable {negative : Bool} {units : Nat} {fits : Fits units}

/-- A number is legible if its plain text is a numeral for its magnitude behind its sign. -/
theorem isLegible_of_isNumeralOf
    {sign : Bool}
    {written : Text}
    (text : (finite negative units fits).plainText = signed sign written)
    (isNumeral : IsNumeralOf written (.finite false units fits))
    (side : sign = negative ∨ units = 0) :
    (finite negative units fits).IsLegible := by
  obtain ⟨numeral, rfl, value⟩ := isNumeral
  refine ⟨rfl, .finite sign units fits, ?_, ?_⟩
  · rw [text, ofText?_signed, value]
    cases sign <;> rfl
  · change (signedUnits sign units == signedUnits negative units) = true
    rw [signedUnits_of_side side]
    exact beq_self_eq_true _

/-- A number reads back from its plain text, unless it has a fraction and is below
`0.0001`. -/
theorem isLegible_of_large (large : units % one = 0 ∨ -4 ≤ pointPosition units - 1) :
    (finite negative units fits).IsLegible := by
  by_cases whole : units % one = 0
  · have isNumeral := isNumeralOf_whole (Text.all_isDigit_ofNat (units / one))
      (Text.ofNat_ne_nil _)
    have exact := ofQuotient_of_fits false Nat.one_pos fits
    rw [Nat.mul_one] at exact
    rw [Text.digitsValue_ofNat, @ofScientific_eq 0 0 0 rfl, Nat.pow_zero, Nat.mul_one,
      Nat.div_mul_cancel (Nat.dvd_of_mod_eq_zero whole), exact] at isNumeral
    refine isLegible_of_isNumeralOf (if_pos whole) isNumeral ?_
    rcases Nat.eq_zero_or_pos units with none | positive
    · exact Or.inr none
    · exact Or.inl (by simp [positive.ne'])
  · have far := large.resolve_left whole
    have isNumeral := isNumeralOf_write (point_of_shortest fits whole far)
    rw [ofDecimal_of_readsBack fits (readsBack_shortest fits)] at isNumeral
    refine @isLegible_of_isNumeralOf _ _ fits negative _ ?_ isNumeral (Or.inl rfl)
    have plain : ¬ pointPosition units - 1 < exactStyle.leastPlain := Int.not_lt.mpr far
    rw [plainText, if_neg whole, if_neg plain, text, if_neg (pos_of_fraction whole).ne']

end Legible

/-! ## Rounded numbers -/

/-- A rounded number is a number of thousandths, which is the floor of a sum with one half. -/
theorem IsRounded.exists_thousandths {rounded : Binary64} (isRounded : IsRounded rounded) :
    ∃ (value : Binary64) (thousandths : Int) (fits : Fits _),
      (value * 1000 + half).floor? = some thousandths ∧
      rounded = .finite (thousandths < 0) (roundedUnits (thousandths.natAbs * one) 1000) fits := by
  have finite := isRounded.within.isFinite
  obtain ⟨value, found⟩ := isRounded
  unfold roundThousandths at found
  split at found
  next thousandths floor =>
    obtain rfl := Except.ok.inj found
    unfold ofIntQuotient at finite ⊢
    by_cases below : roundedUnits (thousandths.natAbs * one) 1000 < limit
    · exact ⟨value, thousandths, fits_roundedUnits _ _ below, floor, ofQuotient_of_lt _ below⟩
    · rw [ofQuotient_of_not_lt _ below] at finite
      cases finite
  next => cases found

/-- The least thousandth is far above `0.0001`. -/
theorem le_roundedUnits_thousandths
    {count : Nat}
    (positive : 0 < count) :
    8 * grain ≤ roundedUnits (count * one) 1000 := by
  have exact : spacing (8 * grain) ∣ 8 * grain :=
    spacing_dvd_shifted 8 (unitPlaces - 13) (by decide)
  refine le_roundedUnits_of_le (by decide) exact ?_
  calc
    8 * grain * 1000 = 8000 * grain := by ring
    _ ≤ 8192 * grain := Nat.mul_le_mul_right grain (by decide)
    _ = one := one_eq.symm
    _ ≤ count * one := Nat.le_mul_of_pos_left one positive

/-- The point of a number of that size stands at most four digits in front of it. -/
theorem le_pointPosition
    {units : Nat}
    (large : 8 * grain ≤ units) :
    -4 ≤ pointPosition units - 1 := by
  have nonzero : 0 < units := by
    have known := two_pow_sixty_four_le_grain
    omega
  have above := (ratio_bounds nonzero).2
  have size : (10 : ℚ) ^ (-4 : ℤ) < ratio units := by
    have cast : ((8 * grain : Nat) : ℚ) ≤ units := by exact_mod_cast large
    have whole : (one : ℚ) = 8192 * grain := by exact_mod_cast one_eq
    have grains : (0 : ℚ) < grain := by exact_mod_cast Nat.two_pow_pos _
    rw [ratio, lt_div_iff₀ one_pos_rat, whole]
    push_cast at cast
    norm_num
    linarith
  have point := (zpow_lt_zpow_iff_right₀ (by norm_num : (1 : ℚ) < 10)).mp (size.trans above)
  omega

/-- A number that was rounded to thousandths reads back from its plain text. -/
theorem IsRounded.isLegible {rounded : Binary64} (isRounded : IsRounded rounded) :
    rounded.IsLegible := by
  obtain ⟨-, thousandths, fits, -, rfl⟩ := isRounded.exists_thousandths
  refine isLegible_of_large ?_
  rcases Nat.eq_zero_or_pos thousandths.natAbs with none | positive
  · refine Or.inl ?_
    rw [none, Nat.zero_mul, roundedUnits_zero, Nat.zero_mod]
  · exact Or.inr (le_pointPosition (le_roundedUnits_thousandths positive))

end Binary64
end Joinery
