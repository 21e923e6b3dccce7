/-!
# Ranges of code points

A property of characters is given by a table of closed ranges of code points.
-/

namespace Joinery
namespace Text

/-- Whether some range of a table holds a character. -/
def inRanges (table : List (Nat × Nat)) (character : Char) : Bool :=
  table.any fun range => range.1 ≤ character.toNat && character.toNat ≤ range.2

end Text
end Joinery
