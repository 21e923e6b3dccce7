import Joinery.Json
import Joinery.Proofs.Binary64.PlainText

/-!
# Documents without names of numbers

JSON has no word for an infinity or a missing number. The writer uses their names, so a
document is JSON only if all its numbers are finite. Inside a quoted text the same letters
are harmless: a board may be called `NaN`. So names are looked for outside of the quoted
texts only.
-/

namespace Joinery
namespace Json

mutual

/-- The numbers of a value, besides its integers. -/
def numbers : Json → List Binary64
  | .number value => [value]
  | .array items => numbersOfItems items
  | .object fields => numbersOfFields fields
  | _ => []

/-- The numbers of the items of an array. -/
def numbersOfItems : List Json → List Binary64
  | [] => []
  | item :: rest => item.numbers ++ numbersOfItems rest

/-- The numbers of the fields of an object. -/
def numbersOfFields : List (String × Json) → List Binary64
  | [] => []
  | (_, value) :: rest => value.numbers ++ numbersOfFields rest

end

theorem numbersOfItems_eq_flatMap (items : List Json) :
    numbersOfItems items = items.flatMap numbers := by
  induction items with
  | nil => rfl
  | cons item rest inductionHypothesis =>
      rw [numbersOfItems, inductionHypothesis, List.flatMap_cons]

theorem numbers_ofOption (value : Option Binary64) :
    (ofOption .number value).numbers = value.toList := by
  cases value <;> rfl

/-- The characters of a document outside of its quoted texts, with the quotes. Inside a
quoted text, a backslash hides the character behind it. -/
def outsideAfter : (isQuoted : Bool) → Text → Text
  | _, [] => []
  | false, character :: rest => character :: outsideAfter (character == '"') rest
  | true, '\\' :: _ :: rest => outsideAfter true rest
  | true, character :: rest =>
      if character = '"' then '"' :: outsideAfter false rest else outsideAfter true rest

/-- A document that names no number outside of its quoted texts. -/
def NamesNoNumber (document : Text) : Prop :=
  ¬ "NaN".toList <:+: outsideAfter false document ∧
    ¬ "Infinity".toList <:+: outsideAfter false document

/-! ## Quoted texts -/

theorem outsideAfter_plain_append
    {text : Text}
    (plain : ∀ character ∈ text, character ≠ '"' ∧ character ≠ '\\')
    (rest : Text) :
    outsideAfter true (text ++ rest) = outsideAfter true rest := by
  induction text with
  | nil => rfl
  | cons first others inductionHypothesis =>
      obtain ⟨⟨notQuote, notSlash⟩, later⟩ := List.forall_mem_cons.mp plain
      rw [List.cons_append, outsideAfter, if_neg notQuote, inductionHypothesis later]
      intro _ _ same
      exact absurd same notSlash

/-- The digits of an escaped control character are plain. -/
theorem plain_controlDigits {point : Nat} (control : point < 0x20) :
    ∀ character ∈ (Nat.toDigits 16 point).leftpad 4 '0',
      character ≠ '"' ∧ character ≠ '\\' := by
  have each : (List.range 0x20).all (fun point =>
      ((Nat.toDigits 16 point).leftpad 4 '0').all fun character =>
        character != '"' && character != '\\') = true := by
    decide +kernel
  simp only [List.all_eq_true, Bool.and_eq_true, bne_iff_ne] at each
  exact each point (List.mem_range.mpr control)

/-- A character of a quoted text does not end it. -/
theorem outsideAfter_writeCharacter_append (character : Char) (rest : Text) :
    outsideAfter true (writeCharacter character ++ rest) = outsideAfter true rest := by
  unfold writeCharacter
  split
  · rfl
  · rfl
  · rfl
  · rfl
  · rfl
  next notQuote notSlash _ _ _ =>
    split
    · rfl
    split
    · rfl
    split
    next control => exact outsideAfter_plain_append (plain_controlDigits control) rest
    next => exact outsideAfter_plain_append (by simpa using ⟨notQuote, notSlash⟩) rest

/-- A quoted text leaves its quotes. -/
theorem outsideAfter_writeString_append (text rest : Text) :
    outsideAfter false (writeString text ++ rest) = '"' :: '"' :: outsideAfter false rest := by
  have inside : outsideAfter true (text.flatMap writeCharacter ++ '"' :: rest) =
      '"' :: outsideAfter false rest := by
    induction text with
    | nil => rfl
    | cons character others inductionHypothesis =>
        rw [List.flatMap_cons, List.append_assoc, outsideAfter_writeCharacter_append,
          inductionHypothesis]
  rw [writeString, List.cons_append, List.cons_append, List.append_assoc, List.singleton_append]
  exact congrArg ('"' :: ·) inside

/-! ## Parts of documents -/

/-- Whether a character neither starts a quoted text nor the name of a number. -/
def isHarmless (character : Char) : Bool :=
  character != '"' && character != 'N' && character != 'I'

/-- A part of a document that closes all its quoted texts and names no number outside of
them. -/
def IsHarmless (part : Text) : Prop :=
  ∃ shown : Text, ('N' ∉ shown ∧ 'I' ∉ shown) ∧
    ∀ rest, outsideAfter false (part ++ rest) = shown ++ outsideAfter false rest

namespace IsHarmless

theorem append
    {first second : Text}
    (firstHarmless : IsHarmless first)
    (secondHarmless : IsHarmless second) :
    IsHarmless (first ++ second) := by
  obtain ⟨firstShown, ⟨firstN, firstI⟩, firstOutside⟩ := firstHarmless
  obtain ⟨secondShown, ⟨secondN, secondI⟩, secondOutside⟩ := secondHarmless
  refine ⟨firstShown ++ secondShown, ⟨by simp [firstN, secondN], by simp [firstI, secondI]⟩,
    fun rest => ?_⟩
  rw [List.append_assoc, firstOutside, secondOutside, List.append_assoc]

theorem of_all
    {part : Text}
    (all : part.all isHarmless = true) :
    IsHarmless part := by
  refine ⟨part, ?_, fun rest => ?_⟩
  · constructor <;> exact fun member => absurd (List.all_eq_true.mp all _ member) (by decide)
  · induction part with
    | nil => rfl
    | cons first others inductionHypothesis =>
        rw [List.all_cons, Bool.and_eq_true] at all
        have notQuote : (first == '"') = false := by
          have harmless := all.1
          simp only [isHarmless, Bool.and_eq_true, bne_iff_ne] at harmless
          exact beq_false_of_ne harmless.1.1
        rw [List.cons_append, outsideAfter, notQuote, inductionHypothesis all.2]
        rfl

theorem writeString (text : Text) : IsHarmless (writeString text) :=
  ⟨['"', '"'], by decide, outsideAfter_writeString_append text⟩

/-- A document that is harmless as a whole names no number. -/
theorem namesNoNumber
    {document : Text}
    (harmless : IsHarmless document) :
    NamesNoNumber document := by
  obtain ⟨shown, ⟨noN, noI⟩, outside⟩ := harmless
  have whole := outside []
  rw [List.append_nil] at whole
  unfold NamesNoNumber
  rw [whole, outsideAfter, List.append_nil]
  exact ⟨fun inside => noN (inside.subset (by decide)),
    fun inside => noI (inside.subset (by decide))⟩

/-! ## Numbers -/

theorem of_isDigit
    {digits : Text}
    (areDigits : digits.all Text.isDigit = true) :
    digits.all isHarmless = true := by
  refine List.all_eq_true.mpr fun character member => ?_
  have digit := List.all_eq_true.mp areDigits character member
  simp only [isHarmless, Bool.and_eq_true, bne_iff_ne]
  refine ⟨⟨?_, ?_⟩, ?_⟩
  all_goals
    rintro rfl
    exact absurd digit (by decide)

theorem writeInteger (value : Int) : IsHarmless (Text.ofInt value) := by
  refine of_all ?_
  cases value with
  | ofNat number => exact of_isDigit (Text.all_isDigit_ofNat number)
  | negSucc number =>
      rw [Text.ofInt, List.all_cons, of_isDigit (Text.all_isDigit_ofNat _)]
      decide

theorem all_placePoint
    {digits : Text}
    (all : digits.all isHarmless = true)
    (point : Int)
    (showsFraction : Bool) :
    (placePoint digits point showsFraction).all isHarmless = true := by
  have zeros (count : Nat) : (List.replicate count '0').all isHarmless = true :=
    of_isDigit (Binary64.all_isDigit_zeros count)
  have mark : isHarmless '.' = true ∧ isHarmless '0' = true := by decide
  have fraction : (if showsFraction then ['.', '0'] else []).all isHarmless = true := by
    cases showsFraction <;> decide
  have taken : (digits.take point.toNat).all isHarmless = true :=
    Text.all_of_subset all (List.take_subset _ _)
  have left : (digits.drop point.toNat).all isHarmless = true :=
    Text.all_of_subset all (List.drop_subset _ _)
  unfold placePoint
  split
  · simp only [List.cons_append, List.all_cons, List.all_append, mark, zeros, all, Bool.and_self]
  split
  · simp only [List.all_append, all, zeros, fraction, Bool.and_self]
  · simp only [List.all_append, List.all_cons, taken, left, mark, Bool.and_self]

theorem all_scientificText
    {digits : Text}
    (all : digits.all isHarmless = true)
    (exponent : Int) :
    (scientificText digits exponent).all isHarmless = true := by
  have marks : isHarmless 'e' = true ∧ isHarmless '.' = true := by decide
  have sign : isHarmless (if exponent < 0 then '-' else '+') = true := by split <;> decide
  have size : ((Text.ofNat exponent.natAbs).leftpad 2 '0').all isHarmless = true := by
    refine of_isDigit ?_
    rw [List.leftpad, List.all_append, Binary64.all_isDigit_zeros, Text.all_isDigit_ofNat]
    rfl
  unfold scientificText exponentText
  split
  · rfl
  · rw [List.all_cons, List.all_nil, Bool.and_true] at all
    simp only [List.all_cons, all, marks, sign, size, Bool.and_self]
  · rw [List.all_cons, Bool.and_eq_true] at all
    simp only [List.cons_append, List.all_cons, List.all_append, all, marks, sign, size,
      Bool.and_self]

theorem all_write (style : DecimalStyle) (decimal : Decimal) :
    (decimal.write style).all isHarmless = true := by
  have digits : ((Text.ofNat decimal.digits).dropEndWhile (· == '0')).all isHarmless = true :=
    of_isDigit (Text.all_of_subset (Text.all_isDigit_ofNat _) (Text.dropEndWhile_subset _ _))
  unfold Decimal.write
  dsimp only
  split
  · exact all_placePoint (by decide) 1 _
  split
  · exact all_scientificText digits _
  · exact all_placePoint digits _ _

/-- A finite number is written without a name. -/
theorem writeNumber
    {value : Binary64}
    (finite : value.isFinite = true) :
    IsHarmless (writeNumber value) := by
  cases value with
  | nan => cases finite
  | infinite negative => cases finite
  | finite negative units fits =>
      refine of_all ?_
      have text := all_write Binary64.exactStyle
        (if units = 0 then ⟨0, 0⟩ else Binary64.shortest units)
      cases negative with
      | false => exact text
      | true => exact text

/-! ## Values -/

theorem all_newLine (level : Nat) : (newLine level).all isHarmless = true := by
  rw [newLine, List.all_cons, List.all_replicate]
  split <;> decide

/-- Brackets around indented lines are harmless. -/
theorem enclosed
    {inside : Text}
    (harmless : IsHarmless inside)
    {opening closing : Char}
    (areHarmless : isHarmless opening = true ∧ isHarmless closing = true)
    (level : Nat) :
    IsHarmless (opening :: newLine (level + 1) ++ inside ++ newLine level ++ [closing]) := by
  have start : IsHarmless (opening :: newLine (level + 1)) :=
    .of_all (by rw [List.all_cons, areHarmless.1, all_newLine, Bool.and_self])
  have ending : IsHarmless [closing] := .of_all (by simp [areHarmless.2])
  exact ((start.append harmless).append (.of_all (all_newLine level))).append ending

/-- What follows behind a comma and a line break is harmless with them. -/
theorem followed
    {first rest : Text}
    (firstHarmless : IsHarmless first)
    (restHarmless : IsHarmless rest)
    (level : Nat) :
    IsHarmless (first ++ ',' :: newLine level ++ rest) := by
  have comma : isHarmless ',' = true := by decide
  have gap : IsHarmless (',' :: newLine level) :=
    .of_all (by rw [List.all_cons, comma, all_newLine, Bool.and_self])
  exact (firstHarmless.append gap).append restHarmless

/-- A field is harmless if its value is. -/
theorem field
    {written : Text}
    (harmless : IsHarmless written)
    (name : String) :
    IsHarmless (Json.writeString name.toList ++ ':' :: ' ' :: written) :=
  have separator : IsHarmless [':', ' '] := of_all (by decide)
  (writeString name.toList).append (separator.append harmless)

end IsHarmless

mutual

/-- A value with finite numbers is written without names of numbers. -/
theorem isHarmless_write (level : Nat) (document : Json)
    (finite : ∀ value ∈ document.numbers, value.isFinite = true) :
    IsHarmless (write level document) := by
  cases document with
  | null => exact .of_all rfl
  | bool value =>
      refine .of_all ?_
      cases value <;> rfl
  | integer value => exact .writeInteger value
  | number value => exact .writeNumber (finite value List.mem_cons_self)
  | string text => exact .writeString text
  | array items =>
      rw [write]
      split
      · exact .of_all rfl
      · exact .enclosed (isHarmless_writeItems (level + 1) items finite) (by decide) level
  | object fields =>
      rw [write]
      split
      · exact .of_all rfl
      · exact .enclosed (isHarmless_writeFields (level + 1) fields finite) (by decide) level

theorem isHarmless_writeItems (level : Nat) (items : List Json)
    (finite : ∀ value ∈ numbersOfItems items, value.isFinite = true) :
    IsHarmless (writeItems level items) := by
  match items with
  | [] => exact .of_all rfl
  | item :: rest =>
      rw [numbersOfItems, List.forall_mem_append] at finite
      have first := isHarmless_write level item finite.1
      have others := isHarmless_writeItems level rest finite.2
      cases rest with
      | nil => exact first
      | cons next further => exact .followed first others level

theorem isHarmless_writeFields (level : Nat) (fields : List (String × Json))
    (finite : ∀ value ∈ numbersOfFields fields, value.isFinite = true) :
    IsHarmless (writeFields level fields) := by
  match fields with
  | [] => exact .of_all rfl
  | (name, value) :: rest =>
      rw [numbersOfFields, List.forall_mem_append] at finite
      have first := isHarmless_write level value finite.1
      have others := isHarmless_writeFields level rest finite.2
      cases rest with
      | nil => exact first.field name
      | cons next further => exact .followed (first.field name) others level

end

/-- The text of a document names no number if all its numbers are finite. -/
theorem namesNoNumber_text
    {document : Json}
    (finite : ∀ value ∈ document.numbers, value.isFinite = true) :
    NamesNoNumber document.text :=
  (isHarmless_write 0 document finite).namesNoNumber

example : ¬ NamesNoNumber (Json.text (.array [.string "Infinity".toList, .number .nan])) := by
  rintro ⟨missing, -⟩
  exact missing (by decide)

end Json
end Joinery
