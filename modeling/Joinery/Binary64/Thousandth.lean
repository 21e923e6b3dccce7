import Joinery.Binary64.Basic

/-!
# Rounding to thousandths

Every computed number is rounded to three decimal places, a half going up. The
rounding fails for the missing number and for numbers whose thousandfold is not
finite.
-/

namespace Joinery
namespace Binary64

/-- The number one half. -/
def half : Binary64 := ofQuotient false one 2

/-- Why a number has no rounding to thousandths. -/
inductive RoundingFault
  | missing
  | tooLarge
  deriving DecidableEq

/-- The number of thousandths next to a number, divided by a thousand again. -/
def roundThousandths (value : Binary64) : Except RoundingFault Binary64 :=
  match floor? (value * 1000 + half) with
  | some thousandths => .ok (ofIntQuotient thousandths 1000)
  | none => .error (if value = .nan then .missing else .tooLarge)

end Binary64
end Joinery
