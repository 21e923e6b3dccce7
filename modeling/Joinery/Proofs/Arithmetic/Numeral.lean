import Joinery.Arithmetic.Lexeme
import Joinery.Proofs.Text.Digit
import Joinery.Proofs.Text.Spacing

/-!
# Numerals of arithmetic

A numeral has digits, which a point and further digits may follow, or a point and digits.
The reader of numerals takes a numeral as a whole, unless a digit or a point comes right
behind it, and it takes nothing but numerals.
-/

namespace Joinery
namespace Arithmetic

/-- A written number: digits with an optional point and digits, or a point and digits. -/
structure Numeral where
  whole : Text
  /-- The digits behind the point, if there is a point. -/
  fraction : Option Text
  wholeDigits : whole.all Text.isDigit = true
  fractionDigits : (fraction.getD []).all Text.isDigit = true
  hasDigit : whole ≠ [] ∨ fraction.getD [] ≠ []

namespace Numeral

/-- The point and the digits behind it. -/
def pointText : Option Text → Text
  | none => []
  | some digits => '.' :: digits

/-- The characters of a numeral. -/
def text (numeral : Numeral) : Text := numeral.whole ++ pointText numeral.fraction

/-- The number nearest to the decimal number that is written. -/
def value (numeral : Numeral) : Binary64 :=
  numeralValue numeral.whole (numeral.fraction.getD [])

/-- A character with which a numeral could go on. -/
def continues (character : Char) : Bool := Text.isDigit character || character == '.'

theorem isDigit_point : Text.isDigit '.' = false := by decide

theorem startsWith_isDigit
    {text : Text}
    (stops : Text.startsWith continues text = false) :
    Text.startsWith Text.isDigit text = false := by
  cases text with
  | nil => rfl
  | cons first rest =>
      simp only [Text.startsWith_cons, continues, Bool.or_eq_false_iff] at stops
      exact stops.1

theorem continues_of_isBlank
    {character : Char}
    (blank : Text.isBlank character = true) :
    continues character = false := by
  have different : (character == '.') = false := by
    rw [beq_eq_false_iff_ne]
    rintro rfl
    exact absurd blank (by decide)
  rw [continues, Text.isDigit_of_isBlank blank, different]
  rfl

/-- A numeral is read as a whole. -/
theorem readNumeral_text
    (numeral : Numeral)
    {after : Text}
    (stops : Text.startsWith continues after = false) :
    ∃ first rest, numeral.text = first :: rest ∧
      readNumeral first (rest ++ after) = some (numeral.value, rest.length) := by
  have ends := startsWith_isDigit stops
  obtain ⟨whole, fraction, wholeDigits, fractionDigits, hasDigit⟩ := numeral
  cases whole with
  | nil =>
      -- Without digits in front of the point there are some behind it.
      cases fraction with
      | none => simp at hasDigit
      | some digits =>
          have nonempty : digits ≠ [] := by simpa using hasDigit
          have taken := Text.takeWhile_append_eq fractionDigits ends
          rw [Option.getD_some] at taken
          refine ⟨'.', digits, rfl, ?_⟩
          simp only [readNumeral, isDigit_point, Bool.false_eq_true, if_false, taken]
          rw [if_pos ⟨trivial, nonempty⟩]
          rfl
  | cons first digits =>
      rw [List.all_cons, Bool.and_eq_true] at wholeDigits
      obtain ⟨firstDigit, restDigits⟩ := wholeDigits
      cases fraction with
      | none =>
          have taken := Text.takeWhile_append_eq restDigits ends
          refine ⟨first, digits, by simp [text, pointText], ?_⟩
          simp only [readNumeral, firstDigit, if_true, taken, List.drop_left]
          split
          next => simp [continues] at stops
          next => rfl
      | some fraction =>
          have taken : (digits ++ '.' :: (fraction ++ after)).takeWhile Text.isDigit = digits :=
            Text.takeWhile_append_eq restDigits (by simpa using isDigit_point)
          have behind := Text.takeWhile_append_eq fractionDigits ends
          rw [Option.getD_some] at behind
          refine ⟨first, digits ++ '.' :: fraction, rfl, ?_⟩
          simp only [readNumeral, firstDigit, if_true, List.append_assoc, List.cons_append,
            taken, List.drop_left, behind]
          simp only [value, Option.getD_some, List.length_append, List.length_cons]
          congr 2
          omega

/-- What is read is a numeral. -/
theorem exists_of_readNumeral
    {first : Char}
    {rest : Text}
    {value : Binary64}
    {count : Nat}
    (found : readNumeral first rest = some (value, count)) :
    ∃ numeral : Numeral, numeral.text = first :: rest.take count ∧ numeral.value = value := by
  obtain ⟨digits, behind, rfl, areDigits, stops⟩ :=
    Text.exists_append_of_all Text.isDigit rest
  have taken := Text.takeWhile_append_eq areDigits stops
  simp only [readNumeral, taken, List.drop_left] at found
  split at found
  next isDigit =>
    have wholeDigits : (first :: digits).all Text.isDigit = true := by
      rw [List.all_cons, isDigit, areDigits, Bool.and_self]
    split at found
    next after =>
      cases found
      obtain ⟨fraction, others, rfl, fractionDigits, ends⟩ :=
        Text.exists_append_of_all Text.isDigit after
      rw [Text.takeWhile_append_eq fractionDigits ends]
      refine ⟨⟨first :: digits, some fraction, wholeDigits, fractionDigits, by simp⟩, ?_, rfl⟩
      rw [Nat.add_assoc, List.take_length_add_append, Nat.add_comm 1, List.take_succ_cons,
        List.take_left]
      rfl
    next =>
      cases found
      refine ⟨⟨first :: digits, none, wholeDigits, rfl, by simp⟩, ?_, rfl⟩
      rw [List.take_left, text, pointText, List.append_nil]
  next =>
    split at found
    next isPoint =>
      cases found
      obtain ⟨rfl, nonempty⟩ := isPoint
      refine ⟨⟨[], some digits, rfl, areDigits, Or.inr nonempty⟩, ?_, rfl⟩
      rw [List.take_left]
      rfl
    next => cases found

/-- The characters of a numeral are digits and points. -/
theorem continues_of_mem (numeral : Numeral) :
    ∀ character ∈ numeral.text, continues character = true := by
  obtain ⟨whole, fraction, wholeDigits, fractionDigits, -⟩ := numeral
  have isDigit (digits : Text) (all : digits.all Text.isDigit = true) :
      ∀ character ∈ digits, continues character = true := by
    intro character member
    rw [continues, List.all_eq_true.mp all character member, Bool.true_or]
  intro character member
  rcases List.mem_append.mp member with member | member
  · exact isDigit whole wholeDigits character member
  · cases fraction with
    | none => cases member
    | some digits =>
        rcases List.mem_cons.mp member with rfl | member
        · rfl
        · exact isDigit digits fractionDigits character member

theorem text_ne_nil (numeral : Numeral) : numeral.text ≠ [] := by
  obtain ⟨first, rest, text, -⟩ := @readNumeral_text numeral [] rfl
  rw [text]
  exact List.cons_ne_nil first rest

end Numeral
end Arithmetic
end Joinery
