import Mathlib.Data.List.TakeDrop
import Joinery.Binary64.Decimal
import Joinery.Binary64.Numeral
import Joinery.Proofs.Arithmetic.Numeral
import Joinery.Proofs.Binary64.Rounding
import Joinery.Proofs.Text.Digit

/-!
# Numerals and their values

The digits of a number are read as that number. So a decimal number that is written without
an exponent is a numeral for it, wherever its point stands.
-/

namespace Joinery

namespace Text

/-! ## Values of digits -/

theorem digitsValue_append (digits others : Text) :
    digitsValue (digits ++ others) =
      digitsValue digits * 10 ^ others.length + digitsValue others := by
  have behind (start : Nat) : others.foldl
      (fun value digit => 10 * value + (digitValue? digit).getD 0) start =
        start * 10 ^ others.length + digitsValue others := by
    unfold digitsValue
    induction others using List.reverseRecOn with
    | nil => simp
    | append_singleton before last inductionHypothesis =>
        simp only [List.foldl_append, List.foldl_cons, List.foldl_nil, inductionHypothesis,
          List.length_append, List.length_singleton, Nat.pow_succ]
        ring
  rw [digitsValue, List.foldl_append, behind]
  rfl

theorem digitsValue_zeros (count : Nat) : digitsValue (List.replicate count '0') = 0 := by
  induction count with
  | zero => rfl
  | succ count inductionHypothesis =>
      rw [List.replicate_succ', digitsValue_append, inductionHypothesis, Nat.zero_mul,
        Nat.zero_add]
      decide

/-- The digits of a number are read as the number. -/
theorem digitsValue_ofNat (number : Nat) : digitsValue (ofNat number) = number := by
  have read : digitsValue (ofNat number) = Nat.ofDigitChars 10 (ofNat number) 0 := by
    rw [digitsValue, Nat.ofDigitChars_eq_foldl]
    refine List.foldl_ext _ _ _ fun value digit member => ?_
    rw [digitValue?_of_isDigit (Nat.isDigit_of_mem_toDigits (by decide) (by decide) member),
      Option.getD_some]
  exact read.trans (Nat.ofDigitChars_toDigits (by decide) (by decide))

/-- The end of a text that is dropped consists of the character that is dropped. -/
theorem exists_dropEndWhile_append (dropped : Char) (text : Text) :
    ∃ count, text = dropEndWhile (· == dropped) text ++ List.replicate count dropped := by
  have whole := List.takeWhile_append_dropWhile (p := (· == dropped)) (l := text.reverse)
  have same : (text.reverse.takeWhile (· == dropped)).reverse =
      List.replicate (text.reverse.takeWhile (· == dropped)).length dropped := by
    refine List.eq_replicate_iff.mpr ⟨List.length_reverse, fun character member => ?_⟩
    exact eq_of_beq (List.mem_takeWhile_imp (p := (· == dropped)) (List.mem_reverse.mp member))
  refine ⟨(text.reverse.takeWhile (· == dropped)).length, ?_⟩
  rw [dropEndWhile, ← same, ← List.reverse_append, whole, List.reverse_reverse]

end Text

namespace Binary64

open Arithmetic (Numeral numeralValue)

/-! ## Values of numerals -/

/-- A decimal number as any quotient of powers of ten. -/
theorem ofScientific_eq
    {exponent : Int}
    {raised lowered : Nat}
    (known : exponent = raised - lowered)
    (negative : Bool)
    (digits : Nat) :
    ofScientific negative digits exponent =
      ofQuotient negative (digits * 10 ^ raised * one) (10 ^ lowered) := by
  have cancel (numerator denominator shared : Nat) :
      ofQuotient negative (numerator * 10 ^ shared) (denominator * 10 ^ shared) =
        ofQuotient negative numerator denominator :=
    ofQuotient_mul_right (Nat.pow_pos (by decide)) negative
  subst known
  rcases Nat.le_total lowered raised with le | le
  · obtain ⟨places, rfl⟩ := Nat.exists_eq_add_of_le le
    have exponent : ((lowered + places : Nat) : Int) - lowered = Int.ofNat places := by
      simp
    rw [exponent, ofScientific, ← cancel _ 1 lowered]
    congr 1
    · rw [Nat.pow_add]
      ring
    · rw [Nat.one_mul]
  · obtain ⟨places, rfl⟩ := Nat.exists_eq_add_of_le le
    have exponent : (raised : Int) - (raised + places : Nat) = -places := by omega
    rw [exponent, ofScientific_neg, ← cancel _ (10 ^ places) raised]
    congr 1
    · ring
    · rw [Nat.pow_add, Nat.mul_comm]

/-- Zeros behind digits raise the exponent. -/
theorem ofScientific_mul_pow (negative : Bool) (digits zeros : Nat) (exponent : Int) :
    ofScientific negative (digits * 10 ^ zeros) exponent =
      ofScientific negative digits (exponent + zeros) := by
  obtain ⟨raised, lowered, rfl⟩ : ∃ raised lowered : Nat, exponent = raised - lowered :=
    ⟨exponent.toNat, (-exponent).toNat, by omega⟩
  rw [ofScientific_eq rfl, @ofScientific_eq _ (zeros + raised) lowered (by omega), Nat.pow_add,
    Nat.mul_assoc digits]

/-- A text that is a numeral with a value. -/
def IsNumeralOf (text : Text) (value : Binary64) : Prop :=
  ∃ numeral : Numeral, numeral.text = text ∧ numeral.value = value

theorem isNumeralOf_whole
    {digits : Text}
    (areDigits : digits.all Text.isDigit = true)
    (nonempty : digits ≠ []) :
    IsNumeralOf digits (ofScientific false (Text.digitsValue digits) 0) := by
  refine ⟨⟨digits, none, areDigits, rfl, Or.inl nonempty⟩, List.append_nil digits, ?_⟩
  change ofScientific false (Text.digitsValue (digits ++ [])) (-([] : Text).length) = _
  rw [List.append_nil]
  rfl

theorem isNumeralOf_point
    {whole fraction : Text}
    (areDigits : (whole ++ fraction).all Text.isDigit = true)
    (nonempty : whole ++ fraction ≠ []) :
    IsNumeralOf (whole ++ '.' :: fraction)
      (ofScientific false (Text.digitsValue (whole ++ fraction)) (-fraction.length)) := by
  rw [List.all_append, Bool.and_eq_true] at areDigits
  rw [Ne, List.append_eq_nil_iff, not_and_or] at nonempty
  exact ⟨⟨whole, some fraction, areDigits.1, areDigits.2, nonempty⟩, rfl, rfl⟩

/-- Digits with a point mean what the digits mean with the exponent of the point. -/
theorem isNumeralOf_placePoint
    {digits : Text}
    (areDigits : digits.all Text.isDigit = true)
    (point : Int) :
    IsNumeralOf (placePoint digits point true)
      (ofScientific false (Text.digitsValue digits) (point - digits.length)) := by
  have zero : Text.isDigit '0' = true := by decide
  have nothing : Text.digitsValue ['0'] = 0 := by decide
  unfold placePoint
  split
  next before =>
    have written := @isNumeralOf_point ['0'] (List.replicate (-point).toNat '0' ++ digits)
      (by simp [areDigits, zero]) (by simp)
    have value : Text.digitsValue (['0'] ++ (List.replicate (-point).toNat '0' ++ digits)) =
        Text.digitsValue digits := by
      rw [Text.digitsValue_append, Text.digitsValue_append, nothing, Text.digitsValue_zeros]
      simp only [Nat.zero_mul, Nat.zero_add]
    have places : -((List.replicate (-point).toNat '0' ++ digits).length : Int) =
        point - digits.length := by
      rw [List.length_append, List.length_replicate]
      omega
    rwa [value, places] at written
  next after =>
    split
    next behind =>
      have written := @isNumeralOf_point
        (digits ++ List.replicate (point.toNat - digits.length) '0') ['0']
        (by simp [areDigits, zero]) (by simp)
      have value : Text.digitsValue
          (digits ++ List.replicate (point.toNat - digits.length) '0' ++ ['0']) =
            Text.digitsValue digits * 10 ^ (point.toNat - digits.length + 1) := by
        rw [Text.digitsValue_append, Text.digitsValue_append, nothing, Text.digitsValue_zeros,
          List.length_replicate, List.length_singleton]
        ring
      have places : (-(['0'] : Text).length + (point.toNat - digits.length + 1 : Nat) : Int) =
          point - digits.length := by
        rw [List.length_singleton]
        omega
      rwa [value, ofScientific_mul_pow, places] at written
    next among =>
      have written := @isNumeralOf_point (digits.take point.toNat) (digits.drop point.toNat)
        (by rwa [List.take_append_drop]) (by
          rw [List.take_append_drop]
          rintro rfl
          rw [List.length_nil] at among
          omega)
      have places : -((digits.drop point.toNat).length : Int) = point - digits.length := by
        rw [List.length_drop]
        omega
      rwa [List.take_append_drop, places] at written

/-- A decimal number that needs no exponent is written as a numeral for it. -/
theorem isNumeralOf_write
    {decimal : Decimal}
    (plain : let point := decimal.exponent + (Text.ofNat decimal.digits).length
      decimal.digits ≠ 0 ∧ -4 ≤ point - 1 ∧ point - 1 < 16) :
    IsNumeralOf (decimal.write exactStyle) (ofDecimal false decimal) := by
  obtain ⟨nonzero, least, most⟩ := plain
  obtain ⟨zeros, whole⟩ := Text.exists_dropEndWhile_append '0' (Text.ofNat decimal.digits)
  have areDigits := Text.all_of_subset (Text.all_isDigit_ofNat decimal.digits)
    (Text.dropEndWhile_subset (· == '0') _)
  have value := congrArg Text.digitsValue whole
  have length := congrArg List.length whole
  have unscaled : ¬ (decimal.exponent + (Text.ofNat decimal.digits).length - 1 <
        exactStyle.leastPlain ∨
      exactStyle.leastScientific ≤
        decimal.exponent + (Text.ofNat decimal.digits).length - 1) :=
    not_or.mpr ⟨least.not_gt, most.not_ge⟩
  unfold Decimal.write
  rw [if_neg nonzero, if_neg unscaled]
  generalize Text.dropEndWhile (· == '0') (Text.ofNat decimal.digits) = digits at *
  rw [Text.digitsValue_ofNat, Text.digitsValue_append, Text.digitsValue_zeros, Nat.add_zero,
    List.length_replicate] at value
  rw [List.length_append, List.length_replicate] at length
  have written := isNumeralOf_placePoint areDigits
    (decimal.exponent + (Text.ofNat decimal.digits).length)
  have exponent : decimal.exponent + (Text.ofNat decimal.digits).length - digits.length =
      decimal.exponent + zeros := by omega
  rwa [exponent, ← ofScientific_mul_pow, ← value] at written

end Binary64
end Joinery
