import Joinery.Proofs.Binary64.Alike
import Joinery.Proofs.Binary64.Decimal
import Joinery.Proofs.Binary64.Numeral

/-!
# Plain text of numbers

A finite number is written as a numeral of arithmetic with a minus sign in front of it if
the number is below zero: the text never has an exponent. What the numeral means in an
expression is what the text reads back as.
-/

namespace Joinery
namespace Binary64

open Arithmetic (Numeral)

/-- A finite number whose plain text reads back as an equal number. -/
def IsLegible (value : Binary64) : Prop :=
  value.isFinite = true ∧ ∃ read, ofText? value.plainText = some read ∧ (read == value) = true

/-! ## Texts with digits and a point -/

/-- A text that is some numeral. -/
def IsNumeral (text : Text) : Prop := ∃ numeral : Numeral, numeral.text = text

theorem IsNumeralOf.isNumeral {text : Text} {value : Binary64} (known : IsNumeralOf text value) :
    IsNumeral text := by
  obtain ⟨numeral, same, -⟩ := known
  exact ⟨numeral, same⟩

theorem all_isDigit_zeros (count : Nat) :
    (List.replicate count '0').all Text.isDigit = true := by
  refine List.all_eq_true.mpr fun character member => ?_
  rw [List.eq_of_mem_replicate member]
  decide

/-- A number with a fixed count of places is written as a numeral. -/
theorem exists_numeral_fixedText
    (places : Nat)
    (negative : Bool)
    (units : Nat) :
    ∃ numeral : Numeral, fixedText places negative units = signed negative numeral.text := by
  unfold fixedText
  generalize nearest (units * 10 ^ places) one = number
  have length : ((Text.ofNat number).leftpad (places + 1) '0').length =
      max (places + 1) (Text.ofNat number).length := List.length_leftpad
  have digits : ((Text.ofNat number).leftpad (places + 1) '0').all Text.isDigit = true := by
    rw [List.leftpad, List.all_append, all_isDigit_zeros, Text.all_isDigit_ofNat, Bool.and_self]
  generalize (Text.ofNat number).leftpad (places + 1) '0' = all at length digits
  have wholeDigits := Text.all_of_subset digits (List.take_subset (all.length - places) all)
  have nonempty : all.take (all.length - places) ≠ [] := by
    rw [Ne, List.take_eq_nil_iff, not_or, ← List.length_eq_zero_iff]
    omega
  have fractionDigits := Text.all_of_subset
    (Text.all_of_subset digits (List.drop_subset (all.length - places) all))
    (Text.dropEndWhile_subset (· == '0') _)
  dsimp only
  split
  · obtain ⟨numeral, same⟩ := (isNumeralOf_whole wholeDigits nonempty).isNumeral
    exact ⟨numeral, by rw [same]⟩
  · have areDigits := Bool.and_eq_true_iff.mpr ⟨wholeDigits, fractionDigits⟩
    rw [← List.all_append] at areDigits
    obtain ⟨numeral, same⟩ :=
      (isNumeralOf_point areDigits (List.append_ne_nil_of_left_ne_nil nonempty _)).isNumeral
    exact ⟨numeral, by rw [same]⟩

theorem neg_iff {negative : Bool} {units : Nat} {fits : Fits units} :
    (.finite negative units fits : Binary64) < 0 ↔ negative = true ∧ units ≠ 0 := by
  rw [zero_eq]
  change decide (signedUnits negative units < signedUnits false 0) = true ↔ _
  rw [decide_eq_true_iff, signedUnits_zero]
  cases negative with
  | false => simp [signedUnits]
  | true => simp [signedUnits, Nat.pos_iff_ne_zero]

/-- A finite number is written as a numeral, with a minus sign if it is below zero. -/
theorem exists_numeral_plainText
    {value : Binary64}
    (finite : value.isFinite = true) :
    ∃ numeral : Numeral, value.plainText = signed (decide (value < 0)) numeral.text := by
  cases value with
  | nan => cases finite
  | infinite negative => cases finite
  | finite negative units fits =>
      have below : decide ((.finite negative units fits : Binary64) < 0) =
          (negative && units != 0) := by
        rw [Bool.eq_iff_iff, decide_eq_true_iff, neg_iff, Bool.and_eq_true, bne_iff_ne]
      rw [below, plainText]
      split
      next whole =>
        obtain ⟨numeral, same⟩ :=
          (isNumeralOf_whole (Text.all_isDigit_ofNat (units / one)) (Text.ofNat_ne_nil _)).isNumeral
        exact ⟨numeral, by rw [same]⟩
      next fractional =>
        have nonzero := (pos_of_fraction fractional).ne'
        have sign : (negative && units != 0) = negative := by simp [nonzero]
        rw [sign]
        split
        next small => exact exists_numeral_fixedText 15 negative units
        next large =>
          obtain ⟨numeral, same⟩ :=
            (isNumeralOf_write (point_of_shortest fits fractional (Int.not_lt.mp large))).isNumeral
          refine ⟨numeral, ?_⟩
          rw [text, if_neg nonzero, same]

/-! ## Reading back -/

theorem ofQuotient_of_lt
    (negative : Bool)
    {numerator denominator : Nat}
    (below : roundedUnits numerator denominator < limit) :
    ofQuotient negative numerator denominator =
      .finite negative _ (fits_roundedUnits _ _ below) := by
  rw [ofQuotient, dif_pos below]

theorem ofQuotient_of_not_lt
    (negative : Bool)
    {numerator denominator : Nat}
    (above : ¬ roundedUnits numerator denominator < limit) :
    ofQuotient negative numerator denominator = .infinite negative := by
  rw [ofQuotient, dif_neg above]

theorem neg_finite (negative : Bool) (units : Nat) (fits : Fits units) :
    -(.finite negative units fits : Binary64) = .finite (!negative) units fits := rfl

theorem neg_infinite (negative : Bool) :
    -(.infinite negative : Binary64) = .infinite (!negative) := rfl

theorem ofQuotient_true (numerator denominator : Nat) :
    ofQuotient true numerator denominator = -ofQuotient false numerator denominator := by
  rcases Nat.lt_or_ge (roundedUnits numerator denominator) limit with below | above
  · rw [ofQuotient_of_lt true below, ofQuotient_of_lt false below, neg_finite, Bool.not_false]
  · rw [ofQuotient_of_not_lt true above.not_gt, ofQuotient_of_not_lt false above.not_gt,
      neg_infinite, Bool.not_false]

theorem ofScientific_signed (negative : Bool) (digits : Nat) (exponent : Int) :
    ofScientific negative digits exponent =
      bif negative then -ofScientific false digits exponent
      else ofScientific false digits exponent := by
  cases negative with
  | false => rw [cond_false]
  | true =>
      rw [cond_true]
      cases exponent with
      | ofNat places => rw [ofScientific, ofScientific, ofQuotient_true]
      | negSucc places => rw [ofScientific, ofScientific, ofQuotient_true]

theorem groupsDigits_of_not_mem
    {text : Text}
    (plain : '_' ∉ text)
    (afterDigit : Bool) :
    groupsDigits afterDigit text = true := by
  induction text generalizing afterDigit with
  | nil => rfl
  | cons character rest inductionHypothesis =>
      rw [List.mem_cons, not_or] at plain
      rw [groupsDigits]
      · exact inductionHypothesis plain.2 _
      · exact fun same => plain.1 same.symm

/-- A character of a numeral is no margin, no low line and no sign. -/
theorem not_mem_of_not_continues
    {numeral : Numeral}
    {character : Char}
    (stops : Numeral.continues character = false) :
    character ∉ numeral.text := by
  intro member
  rw [numeral.continues_of_mem character member] at stops
  cases stops

/-- Behind its sign, a numeral is read as digits with a point. -/
theorem ofDigits?_text (negative : Bool) (numeral : Numeral) :
    ofDigits? negative numeral.text =
      some (bif negative then -numeral.value else numeral.value) := by
  obtain ⟨whole, fraction, wholeDigits, fractionDigits, hasDigit⟩ := numeral
  have bound (count : Nat) : boundExponent count 0 = 0 := by
    unfold boundExponent
    omega
  have nonempty : whole ++ fraction.getD [] ≠ [] := by
    rw [Ne, List.append_eq_nil_iff, not_and_or]
    exact hasDigit
  rw [Numeral.value, Arithmetic.numeralValue, ← ofScientific_signed]
  cases fraction with
  | none =>
      have taken := @Text.takeWhile_append_eq _ _ [] wholeDigits rfl
      simp only [Option.getD_none, List.append_nil] at taken nonempty ⊢
      simp only [ofDigits?, Numeral.text, Numeral.pointText, List.append_nil, taken,
        List.drop_length, List.head?_nil, reduceCtorEq, if_false, nonempty]
      simp [exponent?, bound]
  | some fraction =>
      have taken : (whole ++ '.' :: fraction).takeWhile Text.isDigit = whole :=
        Text.takeWhile_append_eq wholeDigits (by simpa using Numeral.isDigit_point)
      have behind := @Text.takeWhile_append_eq _ _ [] fractionDigits rfl
      simp only [Option.getD_some, List.append_nil] at behind nonempty ⊢
      simp only [ofDigits?, Numeral.text, Numeral.pointText, taken, List.drop_left, behind,
        List.head?_cons, if_true, nonempty, if_false]
      simp [exponent?, bound]

/-- Digits and points have no capitals. -/
theorem toLower_of_continues
    {character : Char}
    (continues : Numeral.continues character = true) :
    character.toLower = character := by
  rcases Bool.or_eq_true_iff.mp continues with digit | point
  · exact Text.toLower_of_isDigit digit
  · rw [eq_of_beq point]
    decide

/-- No numeral is the name of a number. -/
theorem ofName?_text (negative : Bool) (numeral : Numeral) :
    ofName? negative numeral.text = none := by
  have small : numeral.text.map Char.toLower = numeral.text := by
    refine (List.map_congr_left fun character member => ?_).trans (List.map_id _)
    exact toLower_of_continues (numeral.continues_of_mem character member)
  have unnamed (name : String) (letters : name.toList.all Numeral.continues = false) :
      String.ofList (numeral.text.map Char.toLower) ≠ name := by
    rintro rfl
    obtain ⟨letter, member, stops⟩ := List.all_eq_false.mp letters
    rw [String.toList_ofList, small] at member
    exact stops (numeral.continues_of_mem letter member)
  unfold ofName?
  split
  next same => exact absurd same (unnamed _ (by decide))
  next same => exact absurd same (unnamed _ (by decide))
  next same => exact absurd same (unnamed _ (by decide))
  next => rfl

theorem splitSign_signed (negative : Bool) (numeral : Numeral) :
    splitSign (signed negative numeral.text) = (negative, numeral.text) := by
  cases negative with
  | true => rfl
  | false =>
      have minus := @not_mem_of_not_continues numeral '-' (by decide)
      have plus := @not_mem_of_not_continues numeral '+' (by decide)
      simp only [signed, Bool.false_eq_true, if_false]
      unfold splitSign
      split
      next same => simp [same] at minus
      next same => simp [same] at plus
      next => rfl

theorem eq_minus_or_mem
    {negative : Bool}
    {text : Text}
    {character : Char}
    (member : character ∈ signed negative text) :
    character = '-' ∨ character ∈ text := by
  cases negative with
  | false => exact Or.inr member
  | true => exact List.mem_cons.mp member

/-- The characters of a numeral with a sign. -/
theorem mem_signed
    {negative : Bool}
    {numeral : Numeral}
    {character : Char}
    (member : character ∈ signed negative numeral.text) :
    character = '-' ∨ Numeral.continues character = true :=
  (eq_minus_or_mem member).imp_right (numeral.continues_of_mem character)

/-- No number is written with an `l`, not even one that has a name. -/
theorem toLower_ne_of_mem_plainText
    {value : Binary64}
    {character : Char}
    (member : character ∈ value.plainText) :
    character.toLower ≠ 'l' := by
  have named (negative : Bool) (name : String)
      (letters : name.toList.all (fun letter => letter.toLower != 'l') = true)
      (inside : character ∈ nameText negative name) : character.toLower ≠ 'l' := by
    rcases eq_minus_or_mem inside with rfl | inside
    · decide
    · exact bne_iff_ne.mp (List.all_eq_true.mp letters character inside)
  cases known : value with
  | nan =>
      rw [known] at member
      exact named false "nan" (by decide) member
  | infinite negative =>
      rw [known] at member
      exact named negative "inf" (by decide) member
  | finite negative units fits =>
      have finite : value.isFinite = true := by rw [known]; rfl
      obtain ⟨numeral, written⟩ := exists_numeral_plainText finite
      rw [written] at member
      rcases mem_signed member with rfl | continues
      · decide
      · rw [toLower_of_continues continues]
        rintro rfl
        exact absurd continues (by decide)

theorem isBlank_of_mem_signed
    {negative : Bool}
    {numeral : Numeral}
    {character : Char}
    (member : character ∈ signed negative numeral.text) :
    Text.isBlank character = false := by
  rcases mem_signed member with rfl | continues
  · decide
  · rw [← Bool.not_eq_true]
    intro blank
    rw [Numeral.continues_of_isBlank blank] at continues
    cases continues

/-- A numeral with a sign reads back as what it means in an expression. -/
theorem ofText?_signed (negative : Bool) (numeral : Numeral) :
    ofText? (signed negative numeral.text) =
      some (bif negative then -numeral.value else numeral.value) := by
  have plain : '_' ∉ signed negative numeral.text := by
    intro member
    exact absurd (mem_signed member) (by decide)
  have grouped := groupsDigits_of_not_mem plain false
  have kept : (signed negative numeral.text).filter (· != '_') =
      signed negative numeral.text := by
    refine List.filter_eq_self.mpr fun character member => bne_iff_ne.mpr ?_
    rintro rfl
    exact plain member
  have trimmed : Text.stripMargins (signed negative numeral.text) =
      signed negative numeral.text := by
    have noMargin : ∀ character ∈ signed negative numeral.text,
        Text.isMargin character = false := by
      intro character member
      rw [Text.isMargin, isBlank_of_mem_signed member, Bool.false_and]
    have start := Text.startsWith_of_forall noMargin
    have ending := Text.startsWith_of_forall fun character member =>
      noMargin character (List.mem_reverse.mp member)
    rw [Text.stripMargins, Text.dropWhile_eq_self start, Text.dropWhile_eq_self ending,
      List.reverse_reverse]
  simp only [ofText?, trimmed, if_pos grouped, kept, splitSign_signed, ofName?_text,
    ofDigits?_text, Option.none_or]

/-- The numeral in the text of a legible number means the number, up to the sign of
zero. -/
theorem IsLegible.exists_numeral
    {value : Binary64}
    (legible : value.IsLegible) :
    ∃ numeral : Numeral, value.plainText = signed (decide (value < 0)) numeral.text ∧
      Alike (bif decide (value < 0) then -numeral.value else numeral.value) value := by
  obtain ⟨finite, read, found, equal⟩ := legible
  obtain ⟨numeral, text⟩ := exists_numeral_plainText finite
  rw [text, ofText?_signed] at found
  cases found
  exact ⟨numeral, text, .of_equal finite equal⟩

end Binary64
end Joinery
