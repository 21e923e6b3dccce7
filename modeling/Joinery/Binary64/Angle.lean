import Joinery.Binary64.Basic

/-!
# Angles

Sine, cosine and the angle of a vector, computed with fixed binary places far
beyond those of a binary64 number and then rounded once. The arctangent is summed
by its series with positive terms

`atan t = t / (1 + t ^ 2) * (1 + 2 / 3 * y + 2 / 3 * 4 / 5 * y ^ 2 + ...)`, where
`y = t ^ 2 / (1 + t ^ 2)`,

each of which is at most half the one before when `t` is at most one.

Mathematical libraries promise a bound on the error at most, so their results may
differ from these in the last place.
-/

namespace Joinery

namespace Binary64

/-- Binary places of sines, cosines and arctangents before they are rounded. -/
@[irreducible] def anglePlaces : Nat := 1400

/-- Binary places of the circle constant, enough to take whole turns out of the
largest finite angle. -/
@[irreducible] def turnPlaces : Nat := 2600

/-- Sum of the arctangent series from a given term on. -/
def arctangentTerms (places square : Nat) : Nat → Nat → Nat → Nat → Nat
  | 0, _, _, sum => sum
  | count + 1, index, term, sum =>
      if term = 0 then sum
      else
        arctangentTerms places square count (index + 1)
          (((term * square) >>> places) * (2 * index) / (2 * index + 1)) (sum + term)

/-- Arctangent of a number from zero to one with fixed binary places. -/
def arctangent (places tangent : Nat) : Nat :=
  let unit := 2 ^ places
  let secant := unit * unit + tangent * tangent
  let square := (tangent * tangent * unit) / secant
  arctangentTerms places square (places + 64) 1 (tangent * unit * unit / secant) 0

/-- Half a turn with fixed binary places. -/
def halfTurn : Nat := 4 * arctangent turnPlaces (2 ^ turnPlaces)

/-- Half a turn with the binary places of arctangents. -/
def shortHalfTurn : Nat := halfTurn >>> (turnPlaces - anglePlaces)

/-- The number nearest to a signed number with fixed binary places. -/
def ofFixed (value : Int) : Binary64 :=
  ofQuotient (decide (value < 0)) (value.natAbs * one) (2 ^ anglePlaces)

/-- The circle constant. -/
def pi : Binary64 := ofFixed shortHalfTurn

/-- Sum of the alternating series whose term is multiplied by
`square / (index * (index + 1))` from one to the next. -/
def alternatingTerms (square : Nat) : Nat → Nat → Nat → Int
  | 0, _, _ => 0
  | count + 1, index, term =>
      if term = 0 then 0
      else
        term - alternatingTerms square count (index + 2)
          (((term * square) >>> anglePlaces) / (index * (index + 1)))

/-- An angle in units without its whole turns, with fixed binary places. -/
def withoutTurns (units : Nat) : Nat :=
  ((units * 2 ^ (turnPlaces - unitPlaces)) % (2 * halfTurn)) >>>
    (turnPlaces - anglePlaces)

/-- Sine of an angle in radians with fixed binary places. -/
def fixedSine (angle : Nat) : Int :=
  alternatingTerms ((angle * angle) >>> anglePlaces) anglePlaces 2 angle

/-- Cosine of an angle in radians with fixed binary places. -/
def fixedCosine (angle : Nat) : Int :=
  alternatingTerms ((angle * angle) >>> anglePlaces) anglePlaces 1 (2 ^ anglePlaces)

/-- Sine of an angle in radians, rounded once where a mathematical library may be
off in the last place; infinite angles have none. -/
def sin : Binary64 → Binary64
  | .finite negative units fits =>
      if units = 0 then .finite negative units fits
      else
        let sine := ofFixed (fixedSine (withoutTurns units))
        if negative then -sine else sine
  | _ => .nan

/-- Cosine of an angle in radians, rounded once where a mathematical library may be
off in the last place; infinite angles have none. -/
def cos : Binary64 → Binary64
  | .finite _ units _ => ofFixed (fixedCosine (withoutTurns units))
  | _ => .nan

/-- Angle between a vector with components of the given magnitudes and the first
axis. -/
def steepness (rise run : Nat) : Nat :=
  if rise ≤ run then arctangent anglePlaces ((rise * 2 ^ anglePlaces) / run)
  else
    shortHalfTurn / 2 - arctangent anglePlaces ((run * 2 ^ anglePlaces) / rise)

/-- Angle in radians of the vector with the given signs and magnitudes. -/
def vectorAngle (down : Bool) (rise : Nat) (left : Bool) (run : Nat) : Binary64 :=
  if rise = 0 ∧ left = false then .finite down 0 fits_zero
  else
    let angle := if rise = 0 then 0 else steepness rise run
    let full := if left then shortHalfTurn - angle else angle
    if down then -ofFixed full else ofFixed full

/-- Angle in radians of the vector with the components `run` and `rise`, rounded once
where a mathematical library may be off in the last place; an infinite component
outweighs a finite one. -/
def atan2 : (rise run : Binary64) → Binary64
  | .nan, _ => .nan
  | _, .nan => .nan
  | .infinite down, .infinite left => vectorAngle down 1 left 1
  | .infinite down, .finite left _ _ => vectorAngle down 1 left 0
  | .finite down _ _, .infinite left => vectorAngle down 0 left 1
  | .finite down rise _, .finite left run _ => vectorAngle down rise left run

/-- The number of degrees in half a turn. -/
def straightAngle : Binary64 := 180

/-- Degrees of an angle in radians. -/
def toDegrees (angle : Binary64) : Binary64 := angle * straightAngle / pi

/-- Radians of an angle in degrees. -/
def toRadians (angle : Binary64) : Binary64 := angle * pi / straightAngle

end Binary64
end Joinery
