/-!
# Binary64 numbers

Floating-point numbers of 64 bits as exact values. A finite number is a sign and
a count of units, where one unit is the least positive number `2 ^ (-1074)`, so
that every operation is exact arithmetic on natural numbers followed by one
rounding. Rounding is to nearest, with ties to the even neighbour, and
`fits_roundedUnits` says that it always ends in a representable count.
-/

namespace Joinery

namespace Binary64

/-- Powers of natural numbers are the same ones wherever this library is used. -/
scoped instance naturalPower : Pow Nat Nat := instPowNat

/-- Number of binary places behind the point that a number can have. -/
@[irreducible] def unitPlaces : Nat := 1074

/-- Number of binary places before the point that a finite number can have. -/
@[irreducible] def wholePlaces : Nat := 1024

/-- Number of units in the number one. -/
def one : Nat := 2 ^ unitPlaces

/-- The first count of units that is too large for a finite number. -/
def limit : Nat := 2 ^ (unitPlaces + wholePlaces)

/-- Number of binary digits that a number can have. -/
def precision : Nat := 53

/-- Distance between neighbouring numbers of the magnitude of `units`. -/
def spacing (units : Nat) : Nat := 2 ^ (units.log2 + 1 - precision)

/-- A count of units that some finite number has. -/
def Fits (units : Nat) : Prop := units < limit ∧ spacing units ∣ units

instance (units : Nat) : Decidable (Fits units) :=
  inferInstanceAs (Decidable (_ ∧ _))

theorem one_pos : 0 < one := Nat.two_pow_pos _

theorem limit_pos : 0 < limit := Nat.two_pow_pos _

theorem fits_zero : Fits 0 := ⟨limit_pos, Nat.dvd_zero _⟩

/-- The whole number nearest to a quotient, a half going to the even one. -/
def nearest (numerator denominator : Nat) : Nat :=
  let quotient := numerator / denominator
  let remainder := numerator % denominator
  if 2 * remainder < denominator then quotient
  else if denominator < 2 * remainder then quotient + 1
  else if quotient % 2 = 0 then quotient
  else quotient + 1

theorem nearest_le (numerator denominator : Nat) :
    nearest numerator denominator ≤ numerator / denominator + 1 := by
  unfold nearest
  grind

/-- The representable count of units nearest to a quotient, when there is no
upper limit. -/
def roundedUnits (numerator denominator : Nat) : Nat :=
  let step := spacing (numerator / denominator)
  nearest numerator (denominator * step) * step

theorem nearest_of_dvd {numerator denominator : Nat}
    (positive : 0 < denominator) (exact : denominator ∣ numerator) :
    nearest numerator denominator = numerator / denominator := by
  simp [nearest, Nat.mod_eq_zero_of_dvd exact, positive]

theorem precision_pos : 0 < precision := by decide

theorem spacing_pos (units : Nat) : 0 < spacing units := Nat.two_pow_pos _

/-- A representable count of units is its own rounding. -/
theorem roundedUnits_of_dvd {units denominator : Nat}
    (positive : 0 < denominator) (exact : spacing units ∣ units) :
    roundedUnits (units * denominator) denominator = units := by
  have whole : units * denominator / denominator = units :=
    Nat.mul_div_cancel _ positive
  unfold roundedUnits
  simp only [whole]
  rw [Nat.mul_comm denominator,
    nearest_of_dvd (Nat.mul_pos (spacing_pos units) positive)
      (Nat.mul_dvd_mul_right exact denominator),
    Nat.mul_div_mul_right _ _ positive]
  exact Nat.div_mul_cancel exact

theorem nearest_spacing_le (numerator denominator : Nat) :
    nearest numerator (denominator * spacing (numerator / denominator)) ≤
      2 ^ precision := by
  refine Nat.le_trans (nearest_le _ _) ?_
  rw [← Nat.div_div_eq_div_mul]
  generalize numerator / denominator = units
  suffices units / spacing units < 2 ^ precision from this
  unfold spacing
  rw [Nat.div_lt_iff_lt_mul (Nat.two_pow_pos _), ← Nat.pow_add]
  refine Nat.lt_of_lt_of_le Nat.lt_log2_self (Nat.pow_le_pow_right (by decide) ?_)
  omega

theorem spacing_dvd_shifted (digits places : Nat) (bound : digits ≤ 2 ^ precision) :
    spacing (digits * 2 ^ places) ∣ digits * 2 ^ places := by
  have positive := precision_pos
  unfold spacing
  rcases Nat.lt_or_ge digits (2 ^ precision) with small | large
  · refine Nat.dvd_trans (Nat.pow_dvd_pow 2 ?_) (Nat.dvd_mul_left _ digits)
    rcases Nat.eq_zero_or_pos (digits * 2 ^ places) with zero | nonzero
    · simp [zero]
      omega
    · have below : (digits * 2 ^ places).log2 < precision + places := by
        rw [Nat.log2_lt (by omega), Nat.pow_add]
        exact Nat.mul_lt_mul_of_pos_right small (Nat.two_pow_pos _)
      omega
  · obtain rfl : digits = 2 ^ precision := Nat.le_antisymm bound large
    rw [← Nat.pow_add, Nat.log2_two_pow]
    exact Nat.pow_dvd_pow 2 (by omega)

theorem fits_roundedUnits (numerator denominator : Nat)
    (below : roundedUnits numerator denominator < limit) :
    Fits (roundedUnits numerator denominator) :=
  ⟨below, spacing_dvd_shifted _ _ (nearest_spacing_le _ _)⟩

end Binary64

/-- A floating-point number of 64 bits. -/
inductive Binary64
  | nan
  | infinite (negative : Bool)
  | finite (negative : Bool) (units : Nat) (fits : Binary64.Fits units)
  deriving DecidableEq

namespace Binary64

/-- The number nearest to a signed quotient of counts of units. -/
def ofQuotient (negative : Bool) (numerator denominator : Nat) : Binary64 :=
  if below : roundedUnits numerator denominator < limit then
    .finite negative _ (fits_roundedUnits _ _ below)
  else .infinite negative

/-- A number is nearest to every quotient that equals it. -/
theorem ofQuotient_of_fits (negative : Bool) {units denominator : Nat}
    (positive : 0 < denominator) (fits : Fits units) :
    ofQuotient negative (units * denominator) denominator =
      .finite negative units fits := by
  have rounded := roundedUnits_of_dvd positive fits.2
  simp [ofQuotient, rounded, fits.1]

/-- Positive zero. -/
def zero : Binary64 := .finite false 0 fits_zero

/-- The number nearest to `digits * 10 ^ exponent`. -/
def ofScientific (negative : Bool) (digits : Nat) (exponent : Int) : Binary64 :=
  match exponent with
  | .ofNat places => ofQuotient negative (digits * 10 ^ places * one) 1
  | .negSucc places => ofQuotient negative (digits * one) (10 ^ (places + 1))

theorem ofScientific_neg (negative : Bool) (digits places : Nat) :
    ofScientific negative digits (-places) =
      ofQuotient negative (digits * one) (10 ^ places) := by
  cases places with
  | zero => simp [ofScientific]
  | succ places => rfl

/-- The number nearest to a natural number. -/
def ofNat (number : Nat) : Binary64 := ofQuotient false (number * one) 1

instance (number : Nat) : OfNat Binary64 number := ⟨ofNat number⟩

/-- The number nearest to the quotient of an integer by a natural number. -/
def ofIntQuotient (numerator : Int) (denominator : Nat) : Binary64 :=
  ofQuotient (decide (numerator < 0)) (numerator.natAbs * one) denominator

/-- Neither an infinity nor the missing number. -/
def isFinite : Binary64 → Bool
  | .finite _ _ _ => true
  | _ => false

/-- Count of units with its sign. -/
def signedUnits (negative : Bool) (units : Nat) : Int :=
  if negative then -(units : Int) else units

/-- Change of sign. -/
def neg : Binary64 → Binary64
  | .nan => .nan
  | .infinite negative => .infinite !negative
  | .finite negative units fits => .finite (!negative) units fits

/-- Sum; opposite infinities have none, and an exact zero is positive unless both
terms are negative zeros. -/
def add : Binary64 → Binary64 → Binary64
  | .nan, _ => .nan
  | _, .nan => .nan
  | .infinite left, .infinite right => if left = right then .infinite left else .nan
  | .infinite left, .finite _ _ _ => .infinite left
  | .finite _ _ _, .infinite right => .infinite right
  | .finite left leftUnits _, .finite right rightUnits _ =>
      let sum := signedUnits left leftUnits + signedUnits right rightUnits
      if sum = 0 then .finite (left && right) 0 fits_zero
      else ofQuotient (decide (sum < 0)) sum.natAbs 1

/-- Difference. -/
def sub (left right : Binary64) : Binary64 := left.add right.neg

/-- Product; zero times an infinity has none. -/
def mul : Binary64 → Binary64 → Binary64
  | .nan, _ => .nan
  | _, .nan => .nan
  | .infinite left, .infinite right => .infinite (left != right)
  | .infinite left, .finite right units _ =>
      if units = 0 then .nan else .infinite (left != right)
  | .finite left units _, .infinite right =>
      if units = 0 then .nan else .infinite (left != right)
  | .finite left leftUnits _, .finite right rightUnits _ =>
      ofQuotient (left != right) (leftUnits * rightUnits) one

/-- Quotient; a number other than zero divided by zero is an infinity. -/
def div : Binary64 → Binary64 → Binary64
  | .nan, _ => .nan
  | _, .nan => .nan
  | .infinite _, .infinite _ => .nan
  | .infinite left, .finite right _ _ => .infinite (left != right)
  | .finite left _ _, .infinite right => .finite (left != right) 0 fits_zero
  | .finite left leftUnits _, .finite right rightUnits _ =>
      if rightUnits = 0 then
        if leftUnits = 0 then .nan else .infinite (left != right)
      else ofQuotient (left != right) (leftUnits * one) rightUnits

instance : Neg Binary64 := ⟨neg⟩
instance : Add Binary64 := ⟨add⟩
instance : Sub Binary64 := ⟨sub⟩
instance : Mul Binary64 := ⟨mul⟩
instance : Div Binary64 := ⟨div⟩

/-- Numerical order, in which the two zeros are equal and the missing number is
not comparable. -/
def less : Binary64 → Binary64 → Bool
  | .nan, _ => false
  | _, .nan => false
  | .infinite left, .infinite right => left && !right
  | .infinite left, .finite _ _ _ => left
  | .finite _ _ _, .infinite right => !right
  | .finite left leftUnits _, .finite right rightUnits _ =>
      signedUnits left leftUnits < signedUnits right rightUnits

/-- Numerical equality, in which the two zeros are equal and the missing number
differs from itself. -/
def equal : Binary64 → Binary64 → Bool
  | .infinite left, .infinite right => left == right
  | .finite left leftUnits _, .finite right rightUnits _ =>
      signedUnits left leftUnits == signedUnits right rightUnits
  | _, _ => false

instance : LT Binary64 := ⟨fun left right => left.less right = true⟩

instance (left right : Binary64) : Decidable (left < right) :=
  inferInstanceAs (Decidable (_ = true))

instance : LE Binary64 :=
  ⟨fun left right => (left.less right || left.equal right) = true⟩

instance (left right : Binary64) : Decidable (left ≤ right) :=
  inferInstanceAs (Decidable (_ = true))

instance : BEq Binary64 := ⟨equal⟩

/-- Magnitude. -/
def abs : Binary64 → Binary64
  | .nan => .nan
  | .infinite _ => .infinite false
  | .finite _ units fits => .finite false units fits

/-- The greatest integer that is not above the number, if it is finite. -/
def floor? : Binary64 → Option Int
  | .finite negative units _ => some ((signedUnits negative units).fdiv one)
  | _ => none

/-- The integer next to the number on the side of zero, if it is finite. -/
def truncate? : Binary64 → Option Int
  | .finite negative units _ => some ((signedUnits negative units).tdiv one)
  | _ => none

/-- A finite number without a fraction. -/
def isInteger : Binary64 → Bool
  | .finite _ units _ => units % one == 0
  | _ => false

end Binary64
end Joinery
