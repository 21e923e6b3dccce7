import Joinery.Token
import Joinery.Text.Lower

/-!
# Keywords

A keyword is a whole word outside all brackets, in capital or small letters. It
starts a section of the options of a board, which ends where the next of some
keywords starts.
-/

namespace Joinery
namespace Keyword

/-- Whether a token is a keyword. -/
def isAt (keyword : Text) (token : Token) : Bool :=
  token.kind = .word && token.depth = 0 && Text.lower token.text = Text.lower keyword

/-- Offset of the first place of a keyword. -/
def find? (text keyword : Text) : Option Nat :=
  ((tokens text).find? (isAt keyword)).map (·.position)

/-- The earlier of two finds; of two at one place, the first. -/
def earlier : Option (Nat × Text) → Option (Nat × Text) → Option (Nat × Text)
  | none, next => next
  | best, none => best
  | some best, some next => if next.1 < best.1 then some next else some best

/-- Offset of the first place of any of the keywords, and the first keyword that
is there. -/
def findNext? (text : Text) (keywords : List Text) : Option (Nat × Text) :=
  keywords.foldl (fun best keyword =>
    earlier best ((find? text keyword).map fun position => (position, keyword))) none

/-- The text up to the next keyword and the text from there on, without white
space around them. -/
def takeSection (text : Text) (stops : List Text) : Text × Text :=
  match findNext? text stops with
  | none => (Text.strip text, [])
  | some (position, _) =>
      (Text.strip (text.take position), Text.strip (text.drop position))

/-- The text behind the first place of a keyword. -/
def behind? (text keyword : Text) : Option Text :=
  (find? text keyword).map fun position => text.drop (position + keyword.length)

end Keyword
end Joinery
