import Joinery.Binary64.Thousandth

/-!
# Numbers up to the sign of zero

The written form of a number does not show the sign of a zero. No operation tells the
two zeros apart, except by the sign of a zero in its result, and rounding to thousandths
does not do so either.
-/

namespace Joinery
namespace Binary64

/-- Two numbers that are the same, or both zero. -/
inductive Alike : Binary64 → Binary64 → Prop
  | same (value : Binary64) : Alike value value
  | zeros (left right : Bool) : Alike (.finite left 0 fits_zero) (.finite right 0 fits_zero)

theorem roundedUnits_zero (denominator : Nat) : roundedUnits 0 denominator = 0 := by
  simp [roundedUnits, nearest]

theorem ofQuotient_zero (negative : Bool) (denominator : Nat) :
    ofQuotient negative 0 denominator = .finite negative 0 fits_zero := by
  simp [ofQuotient, roundedUnits_zero, limit_pos]

theorem zero_eq : (0 : Binary64) = .finite false 0 fits_zero := by
  change ofQuotient false (0 * one) 1 = _
  rw [Nat.zero_mul, ofQuotient_zero]

theorem signedUnits_zero (negative : Bool) : signedUnits negative 0 = 0 := by
  cases negative <;> rfl

theorem zeros_beq_zero (negative : Bool) :
    ((.finite negative 0 fits_zero : Binary64) == 0) = true := by
  rw [zero_eq]
  change equal _ _ = true
  rw [equal, signedUnits_zero, signedUnits_zero]
  rfl

/-- Both zeros equal zero, and nothing else does. -/
theorem beq_zero_iff (value : Binary64) : (value == 0) = true ↔ value = 0 ∨ value = -0 := by
  rw [zero_eq]
  constructor
  · intro equal
    cases value with
    | nan => cases equal
    | infinite negative => cases equal
    | finite negative units fits =>
        have none : signedUnits negative units = 0 := eq_of_beq equal
        obtain rfl : units = 0 := by
          cases negative <;> simpa [signedUnits] using none
        cases negative with
        | false => exact Or.inl rfl
        | true => exact Or.inr rfl
  · rintro (rfl | rfl)
    · rfl
    · rfl

namespace Alike

theorem trans
    {first second third : Binary64}
    (earlier : Alike first second)
    (later : Alike second third) :
    Alike first third := by
  cases earlier with
  | same value => exact later
  | zeros first second =>
      cases later with
      | same value => exact .zeros first second
      | zeros second third => exact .zeros first third

/-- Numerically equal finite numbers are alike. -/
theorem of_equal
    {left right : Binary64}
    (finite : right.isFinite = true)
    (equal : (left == right) = true) :
    Alike left right := by
  cases right with
  | nan => cases finite
  | infinite negative => cases finite
  | finite negative units fits =>
      cases left with
      | nan => cases equal
      | infinite negative => cases equal
      | finite otherNegative otherUnits otherFits =>
          have sameUnits : signedUnits otherNegative otherUnits = signedUnits negative units :=
            eq_of_beq equal
          rcases Nat.eq_zero_or_pos units with rfl | positive
          · obtain rfl : otherUnits = 0 := by
              cases otherNegative <;> cases negative <;> simp [signedUnits] at sameUnits <;>
                exact sameUnits
            exact .zeros otherNegative negative
          · obtain ⟨rfl, rfl⟩ : otherNegative = negative ∧ otherUnits = units := by
              cases otherNegative <;> cases negative <;> simp [signedUnits] at sameUnits ⊢ <;>
                omega
            exact .same _

section Operations

variable {left right other otherRight : Binary64}

theorem neg (alike : Alike left right) : Alike (-left) (-right) := by
  cases alike with
  | same => exact .same _
  | zeros left right => exact .zeros (!left) (!right)

theorem isFinite_eq (alike : Alike left right) : left.isFinite = right.isFinite := by
  cases alike with
  | same => rfl
  | zeros left right => rfl

theorem beq_zero_eq (alike : Alike left right) : (left == 0) = (right == 0) := by
  cases alike with
  | same => rfl
  | zeros left right => rw [zeros_beq_zero, zeros_beq_zero]

theorem floor?_eq (alike : Alike left right) : left.floor? = right.floor? := by
  cases alike with
  | same => rfl
  | zeros left right => simp only [floor?, signedUnits_zero]

/-- Sums of a zero and another number. -/
theorem zeros_add (left right : Bool) (term : Binary64) :
    Alike (.finite left 0 fits_zero + term) (.finite right 0 fits_zero + term) := by
  change Alike (add _ _) (add _ _)
  cases term with
  | nan => exact .same _
  | infinite negative => exact .same _
  | finite negative units fits =>
      simp only [add, signedUnits_zero, Int.zero_add]
      split
      · exact .zeros _ _
      · exact .same _

theorem add_zeros (left right : Bool) (term : Binary64) :
    Alike (term + .finite left 0 fits_zero) (term + .finite right 0 fits_zero) := by
  change Alike (add _ _) (add _ _)
  cases term with
  | nan => exact .same _
  | infinite negative => exact .same _
  | finite negative units fits =>
      simp only [add, signedUnits_zero, Int.add_zero]
      split
      · exact .zeros _ _
      · exact .same _

theorem add (leftAlike : Alike left right) (rightAlike : Alike other otherRight) :
    Alike (left + other) (right + otherRight) := by
  refine @trans _ (right + other) _ ?_ ?_
  · cases leftAlike with
    | same => exact .same _
    | zeros left right => exact zeros_add left right other
  · cases rightAlike with
    | same => exact .same _
    | zeros left otherRight => exact add_zeros left otherRight right

theorem sub (leftAlike : Alike left right) (rightAlike : Alike other otherRight) :
    Alike (left - other) (right - otherRight) :=
  add leftAlike rightAlike.neg

theorem zeros_mul (left right : Bool) (factor : Binary64) :
    Alike (.finite left 0 fits_zero * factor) (.finite right 0 fits_zero * factor) := by
  change Alike (mul _ _) (mul _ _)
  cases factor with
  | nan => exact .same _
  | infinite negative => exact .same _
  | finite negative units fits =>
      simp only [mul, Nat.zero_mul, ofQuotient_zero]
      exact .zeros _ _

theorem mul_zeros (left right : Bool) (factor : Binary64) :
    Alike (factor * .finite left 0 fits_zero) (factor * .finite right 0 fits_zero) := by
  change Alike (mul _ _) (mul _ _)
  cases factor with
  | nan => exact .same _
  | infinite negative => exact .same _
  | finite negative units fits =>
      simp only [mul, Nat.mul_zero, ofQuotient_zero]
      exact .zeros _ _

theorem mul (leftAlike : Alike left right) (rightAlike : Alike other otherRight) :
    Alike (left * other) (right * otherRight) := by
  refine @trans _ (right * other) _ ?_ ?_
  · cases leftAlike with
    | same => exact .same _
    | zeros left right => exact zeros_mul left right other
  · cases rightAlike with
    | same => exact .same _
    | zeros left otherRight => exact mul_zeros left otherRight right

/-- Quotients are alike unless the divisors are zero. -/
theorem div
    (leftAlike : Alike left right)
    (rightAlike : Alike other otherRight)
    (divides : (other == 0) = false) :
    Alike (left / other) (right / otherRight) := by
  cases rightAlike with
  | zeros first second =>
      rw [zeros_beq_zero] at divides
      cases divides
  | same =>
      cases leftAlike with
      | same => exact .same _
      | zeros left right =>
          change Alike (Binary64.div _ _) (Binary64.div _ _)
          cases other with
          | nan => exact .same _
          | infinite negative => exact .zeros _ _
          | finite negative units fits =>
              simp only [Binary64.div, Nat.zero_mul, ofQuotient_zero, if_true]
              split
              · exact .same _
              · exact .zeros _ _

/-- Rounding to thousandths does not see the sign of a zero. -/
theorem roundThousandths_eq (alike : Alike left right) :
    left.roundThousandths = right.roundThousandths := by
  have sameFloor : floor? (left * 1000 + half) = floor? (right * 1000 + half) :=
    ((alike.mul (.same 1000)).add (.same half)).floor?_eq
  cases alike with
  | same => rfl
  | zeros left right => simp only [roundThousandths, sameFloor, reduceCtorEq, if_false]

end Operations
end Alike
end Binary64
end Joinery
