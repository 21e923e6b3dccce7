import Joinery.Text.Basic

/-!
# Line breaks

Texts come with line feeds, carriage returns or both at the ends of their lines.
`unifyBreaks` leaves only line feeds.
-/

namespace Joinery
namespace Text

/-- The text with a line feed for every line break. -/
def unifyBreaks : Text → Text
  | '\r' :: '\n' :: rest => '\n' :: unifyBreaks rest
  | character :: rest =>
      (if character = '\r' then '\n' else character) :: unifyBreaks rest
  | [] => []

end Text
end Joinery
