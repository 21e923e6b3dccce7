import Joinery.Palette
import Joinery.Proofs.Binary64.Whole
import Joinery.Proofs.Recovery
import Joinery.Proofs.Text.Digit

/-!
# Colours of boards

A colour of a board has a number sign and three or six hexadecimal digits, no matter
whether it was read or comes from the palette. It can always be darkened to one half.
-/

namespace Joinery

open Binary64

namespace Palette

/-- A number sign with three or six hexadecimal digits. -/
def IsColor : Text → Prop
  | [] => False
  | sign :: digits =>
      sign = '#' ∧ (digits.length = 3 ∨ digits.length = 6) ∧ digits.all isHexDigit = true

instance : DecidablePred IsColor
  | [] => inferInstanceAs (Decidable False)
  | _ :: _ => inferInstanceAs (Decidable (_ ∧ _))

/-- A colour that is read is one. -/
theorem isColor_of_readColor?
    {text color : Text}
    (found : readColor? text = some color) :
    IsColor color := by
  unfold readColor? at found
  split at found
  next rest =>
    simp only [Option.ite_none_right_eq_some, Option.some.injEq] at found
    obtain ⟨count, rfl⟩ := found
    exact ⟨rfl, count, List.all_takeWhile⟩
  next => cases found

theorem isColor_of_mem_colors : ∀ color ∈ colors, IsColor color.toList := by
  decide +kernel

/-- A colour of the palette is one, at every index. -/
theorem isColor_autoColor (index : Int) : IsColor (autoColor index) := by
  have positive : (0 : Int) < colors.length := by decide
  have lower := Int.emod_nonneg index (Int.ne_of_gt positive)
  have upper := Int.emod_lt_of_pos index positive
  have inside : (index.emod colors.length).toNat < colors.length := by
    change (index % colors.length).toNat < colors.length
    omega
  rw [autoColor, List.getD_eq_getElem?_getD, List.getElem?_eq_getElem inside, Option.getD_some]
  exact isColor_of_mem_colors _ (List.getElem_mem inside)

/-! ## Darkening -/

/-- A hexadecimal digit has a value. -/
theorem hexDigitValue?_of_isHexDigit
    {character : Char}
    (isHex : isHexDigit character = true) :
    ∃ value, hexDigitValue? character = some value ∧ value < 16 := by
  unfold hexDigitValue?
  split
  next value found =>
    have small := Text.digitValue?_lt found
    exact ⟨value, rfl, by omega⟩
  next missing =>
    have notDecimal : character.isDigit = false := by
      rw [← Bool.not_eq_true]
      intro isDigit
      simpa [missing] using Text.isSome_digitValue? isDigit
    simp only [isHexDigit, notDecimal, Bool.false_or, Bool.or_eq_true, Bool.and_eq_true,
      decide_eq_true_eq, Char.le_def, UInt32.le_iff_toNat_le, Char.toNat_val] at isHex ⊢
    have smallA : 'a'.toNat = 97 := rfl
    have smallF : 'f'.toNat = 102 := rfl
    have capitalA : 'A'.toNat = 65 := rfl
    have capitalF : 'F'.toNat = 70 := rfl
    split
    · exact ⟨_, rfl, by omega⟩
    · split
      · exact ⟨_, rfl, by omega⟩
      · omega

theorem isHexDigit_digitChar : ∀ value < 16, isHexDigit (Nat.digitChar value) = true := by
  decide

/-- A channel that is not negative and below 256 has two hexadecimal digits. -/
theorem channelText_of_lt
    {channel : Nat}
    (small : channel < 256) :
    ∃ first second, channelText channel = [first, second] ∧
      isHexDigit first = true ∧ isHexDigit second = true := by
  change ∃ first second, (Nat.toDigits 16 channel).leftpad 2 '0' = [first, second] ∧ _
  rcases Nat.lt_or_ge channel 16 with single | double
  · rw [Nat.toDigits_of_lt_base single]
    exact ⟨'0', _, rfl, rfl, isHexDigit_digitChar _ single⟩
  · rw [Nat.toDigits_of_base_le (by decide) double,
      Nat.toDigits_of_lt_base (Nat.div_lt_of_lt_mul small)]
    exact ⟨_, _, rfl, isHexDigit_digitChar _ (Nat.div_lt_of_lt_mul small),
      isHexDigit_digitChar _ (Nat.mod_lt _ (by decide))⟩

theorem cutChannel_of_truncate?
    {scaled : Binary64}
    {channel : Int}
    (cut : scaled.truncate? = some channel) :
    cutChannel scaled = .ok (channelText channel) := by
  rw [cutChannel, cut]

/-- A channel of two hexadecimal digits has two such digits when it is halved. -/
theorem scaleChannel_half
    {high low : Char}
    (highHex : isHexDigit high = true)
    (lowHex : isHexDigit low = true) :
    ∃ first second, scaleChannel half high low = .ok [first, second] ∧
      isHexDigit first = true ∧ isHexDigit second = true := by
  obtain ⟨highValue, highKnown, highSmall⟩ := hexDigitValue?_of_isHexDigit highHex
  obtain ⟨lowValue, lowKnown, lowSmall⟩ := hexDigitValue?_of_isHexDigit lowHex
  have value : channelValue? high low = some ((16 * highValue + lowValue : Nat) : Int) := by
    simp [channelValue?, highKnown, lowKnown]
  have small : 16 * highValue + lowValue ≤ 2 ^ precision := by
    have known : 2 ^ 8 ≤ 2 ^ precision := Nat.pow_le_pow_right (by decide) (by decide)
    omega
  obtain ⟨first, second, written, digits⟩ :=
    @channelText_of_lt ((16 * highValue + lowValue) / 2) (by omega)
  refine ⟨first, second, ?_, digits⟩
  rw [scaleChannel, value]
  exact (cutChannel_of_truncate? (truncate?_whole_mul_half small)).trans (congrArg _ written)

/-- Six hexadecimal digits are halved channel by channel. -/
theorem darken_half_of_six
    {color : Text}
    {red₁ red₂ green₁ green₂ blue₁ blue₂ : Char}
    (expanded : expand color = ['#', red₁, red₂, green₁, green₂, blue₁, blue₂])
    (hex : [red₁, red₂, green₁, green₂, blue₁, blue₂].all isHexDigit = true) :
    ∃ digits, darken (some color) half = .ok ('#' :: digits) ∧ digits.length = 6 ∧
      digits.all isHexDigit = true := by
  simp only [List.all_cons, Bool.and_eq_true] at hex
  obtain ⟨red₁Hex, red₂Hex, green₁Hex, green₂Hex, blue₁Hex, blue₂Hex, -⟩ := hex
  obtain ⟨r₁, r₂, redKnown, r₁Hex, r₂Hex⟩ := scaleChannel_half red₁Hex red₂Hex
  obtain ⟨g₁, g₂, greenKnown, g₁Hex, g₂Hex⟩ := scaleChannel_half green₁Hex green₂Hex
  obtain ⟨b₁, b₂, blueKnown, b₁Hex, b₂Hex⟩ := scaleChannel_half blue₁Hex blue₂Hex
  refine ⟨[r₁, r₂, g₁, g₂, b₁, b₂], ?_, rfl, ?_⟩
  · unfold darken
    rw [Option.getD_some, expanded]
    simp only [redKnown, greenKnown, blueKnown]
    rfl
  · simp only [List.all_cons, List.all_nil, r₁Hex, r₂Hex, g₁Hex, g₂Hex, b₁Hex, b₂Hex,
      Bool.and_self]

/-- A colour can be darkened to one half, and has six digits then. -/
theorem darken_half
    {color : Text}
    (isColor : IsColor color) :
    ∃ digits, darken (some color) half = .ok ('#' :: digits) ∧ digits.length = 6 ∧
      digits.all isHexDigit = true := by
  match color, isColor with
  | [_, red, green, blue], ⟨rfl, _, hex⟩ =>
      refine darken_half_of_six rfl ?_
      simp only [List.all_cons, Bool.and_eq_true] at hex ⊢
      obtain ⟨redHex, greenHex, blueHex, none⟩ := hex
      exact ⟨redHex, redHex, greenHex, greenHex, blueHex, blueHex, none⟩
  | [_, _, _, _, _, _, _], ⟨rfl, _, hex⟩ => exact darken_half_of_six rfl hex

end Palette
end Joinery
