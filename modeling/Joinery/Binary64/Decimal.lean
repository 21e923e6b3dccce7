import Joinery.Binary64.Basic
import Joinery.Text.Basic

/-!
# Decimal text of binary64 numbers

A number has three written forms. `text` has the fewest significant digits that
read back as the same number. `plainText` has no exponent, so that it can stand
inside an expression. `briefText` has at most six significant digits. Digits are
chosen in exact arithmetic, and `readsBack_shortest` says that the digits of
`text` read back.
-/

namespace Joinery

/-- The decimal number `digits * 10 ^ exponent`. -/
structure Decimal where
  digits : Nat
  exponent : Int
  deriving DecidableEq

namespace Binary64

/-- The number nearest to a decimal number with a sign. -/
def ofDecimal (negative : Bool) (decimal : Decimal) : Binary64 :=
  ofScientific negative decimal.digits decimal.exponent

/-- Number of digits before the decimal point; zeros after the point count as
negative. -/
def pointPosition (units : Nat) : Int :=
  if one ≤ units then (Text.ofNat (units / one)).length
  else 1 - (Text.ofNat ((one + units - 1) / units - 1)).length

/-- A count of units as a quotient in steps of `10 ^ exponent`. -/
def inSteps (units : Nat) : Int → Nat × Nat
  | .ofNat places => (units, one * 10 ^ places)
  | .negSucc places => (units * 10 ^ (places + 1), one)

/-- The decimal number with the given last place that is nearest to a count of
units. -/
def nearestDecimal (units : Nat) (exponent : Int) : Decimal :=
  let (numerator, denominator) := inSteps units exponent
  ⟨nearest numerator denominator, exponent⟩

/-- The two decimal numbers next to a count of units, the nearer one first. -/
def neighbours (units : Nat) (exponent : Int) : List Decimal :=
  let (numerator, denominator) := inSteps units exponent
  let below := numerator / denominator
  let near := nearest numerator denominator
  [⟨near, exponent⟩, ⟨if near = below then below + 1 else below, exponent⟩]

/-- The decimal expansion of a count of units to its last digit. -/
def exactDecimal (units : Nat) : Decimal := 
  ⟨units * 5 ^ unitPlaces, -unitPlaces⟩

/-- A decimal number whose nearest number has the given count of units. -/
def ReadsBack (units : Nat) (decimal : Decimal) : Prop :=
  match ofDecimal false decimal with
  | .finite _ found _ => found = units
  | _ => False

instance (units : Nat) (decimal : Decimal) : Decidable (ReadsBack units decimal) := by
  unfold ReadsBack
  split <;> infer_instance

/-- Decimal numbers next to a count of units, from one digit to seventeen. -/
def candidates (units : Nat) : List Decimal :=
  (List.range 17).flatMap fun count =>
    neighbours units (pointPosition units - (count + 1 : Nat))

/-- The decimal number with the fewest digits that reads back, and the nearest of
those. -/
def shortest (units : Nat) : Decimal :=
  ((candidates units).find? fun decimal => decide (ReadsBack units decimal)).getD
    (exactDecimal units)

theorem readsBack_exactDecimal {units : Nat} (fits : Fits units) :
    ReadsBack units (exactDecimal units) := by
  have expansion : ofDecimal false (exactDecimal units) = .finite false units fits := by
    have ten : 5 ^ unitPlaces * one = 10 ^ unitPlaces := by
      rw [one, ← Nat.mul_pow]
    rw [ofDecimal, exactDecimal, ofScientific_neg, Nat.mul_assoc, ten]
    exact ofQuotient_of_fits false (Nat.pow_pos (by decide)) fits
  rw [ReadsBack, expansion]

/-- The chosen digits read back as the number that they were chosen for. -/
theorem readsBack_shortest {units : Nat} (fits : Fits units) :
    ReadsBack units (shortest units) := by
  unfold shortest
  cases found : (candidates units).find? fun decimal => decide (ReadsBack units decimal) with
  | none => exact readsBack_exactDecimal fits
  | some decimal =>
      have accepted := List.find?_some found
      exact of_decide_eq_true accepted

end Binary64

/-- Rules for writing significant digits. -/
structure DecimalStyle where
  /-- Decimal exponents from here on are written without an exponent. -/
  leastPlain : Int
  /-- Decimal exponents from here on are written with an exponent again. -/
  leastScientific : Int
  /-- Whether a number without a fraction is written with `.0`. -/
  showsFraction : Bool

/-- Digits with a decimal point behind the first `point` of them. -/
def placePoint (digits : Text) (point : Int) (showsFraction : Bool) : Text :=
  if point ≤ 0 then
    '0' :: '.' :: List.replicate (-point).toNat '0' ++ digits
  else if digits.length ≤ point then
    digits ++ List.replicate (point.toNat - digits.length) '0' ++
      (if showsFraction then ['.', '0'] else [])
  else digits.take point.toNat ++ '.' :: digits.drop point.toNat

/-- An exponent with its sign and at least two digits. -/
def exponentText (exponent : Int) : Text :=
  (if exponent < 0 then '-' else '+') ::
    (Text.ofNat exponent.natAbs).leftpad 2 '0'

/-- One digit before the point, the others behind it, and an exponent. -/
def scientificText (digits : Text) (exponent : Int) : Text :=
  match digits with
  | [] => []
  | first :: [] => first :: 'e' :: exponentText exponent
  | first :: others => first :: '.' :: others ++ 'e' :: exponentText exponent

namespace Decimal

/-- A decimal number written by a style, without zeros at the end of its digits. -/
def write (style : DecimalStyle) (decimal : Decimal) : Text :=
  let all := Text.ofNat decimal.digits
  let digits := all.dropEndWhile (· == '0')
  let point := decimal.exponent + all.length
  if decimal.digits = 0 then placePoint ['0'] 1 style.showsFraction
  else if point - 1 < style.leastPlain ∨ style.leastScientific ≤ point - 1 then
    scientificText digits (point - 1)
  else placePoint digits point style.showsFraction

end Decimal

namespace Binary64

/-- Numbers that read back are plain from `0.0001` to below `10 ^ 16` and always
have a fraction or an exponent. -/
def exactStyle : DecimalStyle := ⟨-4, 16, true⟩

/-- Numbers of six digits are plain from `0.0001` to below `10 ^ 6` and have no
empty fraction. -/
def briefStyle : DecimalStyle := ⟨-4, 6, false⟩

/-- A minus sign in front of the text of a negative number. -/
def signed (negative : Bool) (text : Text) : Text :=
  if negative then '-' :: text else text

/-- Text of the numbers that are not finite. -/
def nameText (negative : Bool) (name : String) : Text := signed negative name.toList

/-- The number with the fewest digits that read back. -/
def text : Binary64 → Text
  | .nan => nameText false "nan"
  | .infinite negative => nameText negative "inf"
  | .finite negative units _ =>
      signed negative ((if units = 0 then ⟨0, 0⟩ else shortest units).write exactStyle)

/-- The number rounded to a fixed count of places, without zeros and a point at
the end. -/
def fixedText (places : Nat) (negative : Bool) (units : Nat) : Text :=
  let all := (Text.ofNat (nearest (units * 10 ^ places) one)).leftpad (places + 1) '0'
  let whole := all.take (all.length - places)
  let fraction := Text.dropEndWhile (· == '0') (all.drop (all.length - places))
  signed negative (if fraction = [] then whole else whole ++ '.' :: fraction)

/-- The number without an exponent: all digits of a whole number, otherwise the
fewest that read back, and at most 15 places below `0.0001`. -/
def plainText : Binary64 → Text
  | .nan => nameText false "nan"
  | .infinite negative => nameText negative "inf"
  | .finite negative units fits =>
      if units % one = 0 then
        signed (negative && units != 0) (Text.ofNat (units / one))
      else if pointPosition units - 1 < exactStyle.leastPlain then
        fixedText 15 negative units
      else text (.finite negative units fits)

/-- The number with at most six significant digits. -/
def briefText : Binary64 → Text
  | .nan => nameText false "nan"
  | .infinite negative => nameText negative "inf"
  | .finite negative units _ =>
      signed negative
        ((if units = 0 then ⟨0, 0⟩
          else nearestDecimal units (pointPosition units - 6)).write briefStyle)

end Binary64
end Joinery
