/-!
# Text

Text is handled as a list of code points, so that an offset into a text is a
number of list elements.
-/

namespace Joinery

/-- A text as the list of its code points. -/
abbrev Text := List Char

namespace Text

/-- Decimal digits of a natural number. -/
def ofNat (number : Nat) : Text := Nat.toDigits 10 number

/-- Decimal digits of an integer, with a minus sign if it is below zero. -/
def ofInt : Int → Text
  | .ofNat number => ofNat number
  | .negSucc number => '-' :: ofNat (number + 1)

/-- The text without the characters of one kind at its end. -/
def dropEndWhile (keep : Char → Bool) (text : Text) : Text :=
  (text.reverse.dropWhile keep).reverse

end Text
end Joinery
