import Joinery.Text.Basic
import Joinery.Text.Blank
import Joinery.Text.Digit

/-!
# Digits and other characters

The digits of ASCII are digits. No other character of ASCII is one, and white space has
none.
-/

namespace Joinery
namespace Text

/-- The value of a decimal digit is below ten. -/
theorem digitValue?_lt
    {character : Char}
    {value : Nat}
    (found : digitValue? character = some value) :
    value < 10 := by
  obtain ⟨start, known, rfl⟩ := Option.map_eq_some_iff.mp found
  have range := List.find?_some known
  simp only [Bool.and_eq_true, decide_eq_true_eq] at range
  omega

/-- The value of a decimal digit of ASCII. -/
theorem digitValue?_of_isDigit
    {character : Char}
    (isDigit : character.isDigit = true) :
    digitValue? character = some (character.toNat - '0'.toNat) := by
  obtain ⟨lower, upper⟩ := Char.isDigit_iff_toNat.mp isDigit
  have first : (decide (0x30 ≤ character.toNat) && decide (character.toNat < 0x30 + 10)) =
      true := by
    have zero : '0'.toNat = 48 := rfl
    have nine : '9'.toNat = 57 := rfl
    simp only [Bool.and_eq_true, decide_eq_true_eq]
    omega
  have starts : zeroDigits = 0x30 :: zeroDigits.tail := rfl
  rw [digitValue?, starts, List.find?_cons]
  simp only [first]
  rfl

/-- A decimal digit of ASCII has a value. -/
theorem isSome_digitValue?
    {character : Char}
    (isDigit : character.isDigit = true) :
    (digitValue? character).isSome = true := by
  rw [digitValue?_of_isDigit isDigit]
  rfl

theorem exists_zeroDigit
    {character : Char}
    (digit : isDigit character = true) :
    ∃ start ∈ zeroDigits, start ≤ character.toNat ∧ character.toNat < start + 10 := by
  rw [isDigit, digitValue?, Option.isSome_map] at digit
  obtain ⟨start, found⟩ := Option.isSome_iff_exists.mp digit
  have known := List.find?_some found
  simp only [Bool.and_eq_true, decide_eq_true_eq] at known
  exact ⟨start, List.mem_of_find?_eq_some found, known⟩

/-- No code point is both that of white space and that of a digit. -/
theorem blankRanges_apart :
    ∀ start ∈ zeroDigits, ∀ range ∈ blankRanges,
      start + 10 ≤ range.1 ∨ range.2 < start := by
  decide +kernel

theorem isDigit_of_isBlank
    {character : Char}
    (blank : isBlank character = true) :
    isDigit character = false := by
  rw [← Bool.not_eq_true]
  intro digit
  obtain ⟨range, member, inside⟩ := List.any_eq_true.mp blank
  obtain ⟨start, known, found⟩ := exists_zeroDigit digit
  simp only [Bool.and_eq_true, decide_eq_true_eq] at inside
  have apart := blankRanges_apart start known range member
  omega

/-- Where digits stand among the code points. -/
theorem toNat_of_isDigit
    {character : Char}
    (digit : isDigit character = true) :
    (48 ≤ character.toNat ∧ character.toNat ≤ 57) ∨ 1632 ≤ character.toNat := by
  have starts : ∀ start ∈ zeroDigits, start = 48 ∨ 1632 ≤ start := by decide
  obtain ⟨start, known, found⟩ := exists_zeroDigit digit
  rcases starts start known with rfl | far
  · omega
  · omega

/-- Only capitals of ASCII have small letters. -/
theorem toLower_eq_self
    {character : Char}
    (outside : character.toNat < 65 ∨ 90 < character.toNat) :
    character.toLower = character := by
  unfold Char.toLower
  rw [dif_neg]
  intro capital
  have least : 65 ≤ character.toNat := UInt32.le_iff_toNat_le.mp capital.1
  have most : character.toNat ≤ 90 := UInt32.le_iff_toNat_le.mp capital.2
  omega

theorem toLower_of_isDigit
    {character : Char}
    (digit : isDigit character = true) :
    character.toLower = character := by
  have place := toNat_of_isDigit digit
  exact toLower_eq_self (by omega)

theorem toLower_of_isBlank
    {character : Char}
    (blank : isBlank character = true) :
    character.toLower = character := by
  have ranges : ∀ range ∈ blankRanges, range.2 < 65 ∨ 90 < range.1 := by decide
  obtain ⟨range, member, inside⟩ := List.any_eq_true.mp blank
  simp only [Bool.and_eq_true, decide_eq_true_eq] at inside
  have apart := ranges range member
  exact toLower_eq_self (by omega)

/-! ## Written numbers -/

/-- The characters of a written number are digits. -/
theorem all_isDigit_ofNat (number : Nat) : (ofNat number).all isDigit = true := by
  refine List.all_eq_true.mpr fun character member => ?_
  exact isSome_digitValue? (Nat.isDigit_of_mem_toDigits (by decide) (by decide) member)

theorem ofNat_ne_nil (number : Nat) : ofNat number ≠ [] := Nat.toDigits_ne_nil

/-- Parts of digits are digits. -/
theorem all_of_subset
    {holds : Char → Bool}
    {part text : Text}
    (all : text.all holds = true)
    (subset : part ⊆ text) :
    part.all holds = true :=
  List.all_eq_true.mpr fun character member => List.all_eq_true.mp all character (subset member)

theorem dropEndWhile_subset (holds : Char → Bool) (text : Text) :
    dropEndWhile holds text ⊆ text := by
  intro character member
  have inside := (List.dropWhile_suffix holds).subset (List.mem_reverse.mp member)
  exact List.mem_reverse.mp inside

end Text
end Joinery
