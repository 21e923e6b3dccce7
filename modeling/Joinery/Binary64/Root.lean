import Joinery.Binary64.Basic

/-!
# Distances

The length of a vector from its two components. The sum of the squares is exact,
so only the root is rounded, and neither a large nor a small component is lost on
the way. Mathematical libraries promise a bound on the error at most, so their
lengths may differ from these in the last place.
-/

namespace Joinery
namespace Binary64

/-- The number nearest to the square root of a count of squared units. Twice the
root is cut to a whole number; if something is cut off, a quarter stands for it,
which lies on the same side of every rounding boundary. -/
def ofSquare (square : Nat) : Binary64 :=
  let root := Nat.sqrt (4 * square)
  ofQuotient false (2 * root + if root * root = 4 * square then 0 else 1) 4

/-- Length of the vector with the given components, rounded correctly where a
mathematical library may be off in the last place. An infinite component makes it
infinite, whatever the other is. -/
def hypot : Binary64 → Binary64 → Binary64
  | .infinite _, _ => .infinite false
  | _, .infinite _ => .infinite false
  | .nan, _ => .nan
  | _, .nan => .nan
  | .finite _ left _, .finite _ right _ => ofSquare (left * left + right * right)

end Binary64
end Joinery
