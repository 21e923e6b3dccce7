import Joinery.Proofs.Canonical.Command
import Joinery.Proofs.Coordinate
import Joinery.Proofs.Expression.Passage
import Joinery.Proofs.Options.Comment
import Joinery.Proofs.Options.Cut

/-!
# Phrases of canonical options

Every phrase of canonical options is a trimmed text on a single line in which no comment
starts. A search for a keyword passes all phrases but the spelled keyword itself: sides,
letters of faces and hexadecimal digits are different words, and expressions have no
words with letters outside of braces.
-/

namespace Joinery

namespace Options

/-- What every phrase of canonical options is. -/
structure IsOption (phrase : Text) : Prop where
  isPhrase : Text.IsPhrase phrase
  oneLine : '\n' ∉ phrase
  uncommented : IsUncommented phrase

namespace IsOption

/-- Words are phrases of options. -/
theorem word
    {text : Text}
    (nonempty : text ≠ [])
    (isWord : text.all Text.isAsciiWordCharacter = true) :
    IsOption text := by
  have absent {character : Char} (notWord : Text.isAsciiWordCharacter character = false) :
      character ∉ text := by
    intro member
    rw [List.all_eq_true.mp isWord character member] at notWord
    cases notWord
  refine ⟨Text.isPhrase_of_forall nonempty fun character member => ?_, absent (by decide),
    .of_not_mem (absent (by decide))⟩
  exact Text.isBlank_of_isAsciiWordCharacter (List.all_eq_true.mp isWord character member)

/-- Phrases with separators between them are a phrase of options, too. -/
theorem joined
    {separator : Char}
    (isSeparator : separator ∈ Keyword.Passes.separators)
    {phrases : List Text}
    (nonempty : phrases ≠ [])
    (each : ∀ phrase ∈ phrases, IsOption phrase) :
    IsOption (Text.joined separator phrases) := by
  have plain : separator ≠ '\n' ∧ separator ≠ '#' := by
    rcases List.mem_cons.mp isSeparator with rfl | member
    · decide
    · rw [List.mem_singleton.mp member]
      decide
  refine Text.joined_induction nonempty each fun first second firstOption secondOption => ?_
  refine ⟨firstOption.isPhrase.append [separator] secondOption.isPhrase, ?_, ?_⟩
  · simp [firstOption.oneLine, secondOption.oneLine, plain.1.symm]
  · have middle : IsUncommented [separator] := .of_not_mem (by simpa using plain.2.symm)
    exact firstOption.uncommented.append (middle.append secondOption.uncommented)

end IsOption
end Options

namespace Canonical

open Expression Options

variable {scope : Scope} {keyword : Text}

/-! ## Keywords -/

/-- The keywords of sections. -/
def keywords : List Text :=
  ["from".toList, "at".toList, "to".toList, "z".toList, "cut".toList, "view".toList,
    "color".toList]

/-- Whether a word can be a keyword, and does not look like what stands behind one. -/
def isDistinct (word : Text) : Bool :=
  !word.isEmpty && word.all Text.isAsciiWordCharacter && Text.lower word == word &&
    !Text.startsWith Char.isDigit word && !(Side.all.map (·.name.toList)).contains word &&
    word.any (!Options.faceLetters.contains ·) && word.any (!Palette.isHexDigit ·)

theorem isDistinct_of_mem (member : keyword ∈ keywords) : isDistinct keyword = true := by
  have all : keywords.all isDistinct = true := by decide
  exact List.all_eq_true.mp all keyword member

theorem isKeyword_of_mem (member : keyword ∈ keywords) : Keyword.IsKeyword keyword := by
  have distinct := isDistinct_of_mem member
  simp only [isDistinct, Bool.and_eq_true, Bool.not_eq_true', beq_iff_eq] at distinct
  obtain ⟨⟨⟨⟨⟨⟨nonempty, isWord⟩, small⟩, starts⟩, -⟩, -⟩, -⟩ := distinct
  exact ⟨by simpa using nonempty, isWord, small, starts⟩

theorem passes_keyword
    (member : keyword ∈ keywords)
    {word : String}
    (known : word.toList ∈ keywords)
    (different : word.toList ≠ keyword)
    {α : Type}
    (part : Section word α) :
    Keyword.Passes keyword part.spelling.text :=
  Keyword.passes_spelling (isKeyword_of_mem member) (isKeyword_of_mem known).isWord part.spelling
    different

theorem isOption_spelling
    {word : Text}
    (nonempty : word ≠ [])
    (isWord : word.all Text.isAsciiWordCharacter = true)
    (spelling : Text.Spelling word) :
    IsOption spelling.text :=
  .word (spelling.text_ne_nil nonempty) (spelling.all_isAsciiWordCharacter isWord)

theorem isOption_keyword
    {word : String}
    (known : word.toList ∈ keywords)
    {α : Type}
    (part : Section word α) :
    IsOption part.spelling.text :=
  isOption_spelling (isKeyword_of_mem known).nonempty (isKeyword_of_mem known).isWord part.spelling

/-- A phrase that stands behind a keyword: a search for a keyword passes it. -/
structure IsContent (phrase : Text) : Prop extends IsOption phrase where
  passes : ∀ keyword ∈ keywords, Keyword.Passes keyword phrase

theorem IsContent.joined
    {separator : Char}
    (isSeparator : separator ∈ Keyword.Passes.separators)
    {phrases : List Text}
    (nonempty : phrases ≠ [])
    (each : ∀ phrase ∈ phrases, IsContent phrase) :
    IsContent (Text.joined separator phrases) :=
  ⟨.joined isSeparator nonempty fun phrase member => (each phrase member).toIsOption,
    fun keyword known => .joined isSeparator fun phrase member =>
      (each phrase member).passes keyword known⟩

/-! ## Expressions -/

namespace Quantity

variable (quantity : Quantity scope)

theorem isExpression : Arithmetic.IsExpression Operand.text quantity.text :=
  ⟨_, quantity.tree, quantity.written⟩

theorem isFormula : IsFormula quantity.text := isFormula_of_isExpression quantity.isExpression

theorem isContent : IsContent quantity.text where
  isPhrase := isPhrase_of_isRow quantity.isFormula
  oneLine := quantity.oneLine
  uncommented := .of_not_mem (not_mem_of_isExpression quantity.isExpression (by decide))
  passes _ member := passes_of_isExpression (isKeyword_of_mem member) quantity.isExpression

/-- A coordinate is not split. -/
theorem isSingle : IsSingle quantity.text :=
  .of_not_mem (not_mem_of_isExpression quantity.isExpression (by decide))

theorem isLevel : Text.IsLevel quantity.text :=
  (Token.depthOf_eq_zero_iff _).mp (depthOf_of_isRow quantity.isFormula)

end Quantity

theorem PlanePoint.isContent (point : PlanePoint scope) : IsContent point.text := by
  refine .joined (by decide) (List.cons_ne_nil _ _) ?_
  simp [point.x.isContent, point.y.isContent]

theorem PlanePoint.splitCoordinates_text (point : PlanePoint scope) :
    splitCoordinates point.text = [point.x.text, point.y.text] := by
  refine splitCoordinates_joined (List.cons_ne_nil _ _) ?_ ?_
  · simp [point.x.isSingle, point.y.isSingle]
  · simp [point.x.isLevel]

theorem SpacePoint.isContent (point : SpacePoint scope) : IsContent point.text := by
  refine .joined (by decide) (List.cons_ne_nil _ _) ?_
  simp [point.x.isContent, point.y.isContent, point.z.isContent]

theorem SpacePoint.splitCoordinates_text (point : SpacePoint scope) :
    splitCoordinates point.text = [point.x.text, point.y.text, point.z.text] := by
  refine splitCoordinates_joined (List.cons_ne_nil _ _) ?_ ?_
  · simp [point.x.isSingle, point.y.isSingle, point.z.isSingle]
  · simp [point.x.isLevel, point.y.isLevel]

/-! ## Sides, faces and colours -/

/-- No side is a keyword. -/
theorem Cut.isContent_side (cut : Cut scope) : IsContent cut.spelling.text := by
  obtain ⟨nonempty, isWord⟩ := cut.side.isWord_name
  refine ⟨isOption_spelling nonempty isWord cut.spelling, fun keyword member => ?_⟩
  refine Keyword.passes_spelling (isKeyword_of_mem member) isWord cut.spelling ?_
  rintro rfl
  have distinct := isDistinct_of_mem member
  have isSide : (Side.all.map (·.name.toList)).contains cut.side.name.toList = true := by
    cases cut.side <;> decide
  simp only [isDistinct, isSide, Bool.not_true, Bool.and_false, Bool.false_and,
    Bool.false_eq_true] at distinct

/-- A word is passed if the small letters of its characters are of a kind that a keyword
has other characters besides. -/
theorem passes_of_all
    {holds : Char → Bool}
    {word : Text}
    (isWord : word.all Text.isAsciiWordCharacter = true)
    (all : ∀ character ∈ word, holds character.toLower = true)
    (member : keyword ∈ keywords)
    (other : keyword.any (!holds ·) = true) :
    Keyword.Passes keyword word := by
  refine Keyword.Passes.word isWord fun same => ?_
  rw [Text.lower_of_isAsciiWordCharacter isWord, (isKeyword_of_mem member).small] at same
  obtain ⟨character, inside, fails⟩ := List.any_eq_true.mp other
  rw [← same] at inside
  obtain ⟨original, known, rfl⟩ := List.mem_map.mp inside
  rw [all original known] at fails
  cases fails

theorem View.isWord (view : View) : view.letters.all Text.isAsciiWordCharacter = true := by
  refine List.all_eq_true.mpr fun letter member => Text.isAsciiWordCharacter_of_toLower ?_
  have all : faceLetters.all Text.isAsciiWordCharacter = true := by decide
  exact List.all_eq_true.mp all _ (view.areFaces letter member)

/-- Letters of faces are no keyword. -/
theorem View.isContent (view : View) : IsContent view.letters := by
  refine ⟨.word view.nonempty view.isWord, fun keyword member => ?_⟩
  have distinct := isDistinct_of_mem member
  simp only [isDistinct, Bool.and_eq_true] at distinct
  refine passes_of_all view.isWord (fun letter known => ?_) member distinct.1.2
  exact List.contains_iff_mem.mpr (view.areFaces letter known)

/-- A hexadecimal digit belongs to words, and its small letter is one again. -/
theorem isWord_of_isHexDigit
    {character : Char}
    (isHex : Palette.isHexDigit character = true) :
    Text.isAsciiWordCharacter character = true ∧
      Palette.isHexDigit character.toLower = true := by
  have all : (List.range 128).all (fun point => !Palette.isHexDigit (Char.ofNat point) ||
      (Text.isAsciiWordCharacter (Char.ofNat point) &&
        Palette.isHexDigit (Char.ofNat point).toLower)) = true := by
    decide +kernel
  have ascii : character.toNat < 128 := by
    simp only [Palette.isHexDigit, Bool.or_eq_true, Bool.and_eq_true, decide_eq_true_eq] at isHex
    rcases isHex with (digit | small) | capital
    · have range := Char.isDigit_iff_toNat.mp digit
      have nine : '9'.toNat = 57 := rfl
      omega
    · have upper : character.toNat ≤ 102 := UInt32.le_iff_toNat_le.mp small.2
      omega
    · have upper : character.toNat ≤ 70 := UInt32.le_iff_toNat_le.mp capital.2
      omega
  have known := List.all_eq_true.mp all character.toNat (List.mem_range.mpr ascii)
  rw [Char.ofNat_toNat, isHex, Bool.not_true, Bool.false_or, Bool.and_eq_true] at known
  exact known

/-- A colour is a number sign and a word of hexadecimal digits. -/
theorem Color.exists_digits (color : Color) :
    ∃ digits : Text, color.val = '#' :: digits ∧ digits ≠ [] ∧
      (digits.length = 3 ∨ digits.length = 6) ∧
      ∀ character ∈ digits, Palette.isHexDigit character = true := by
  obtain ⟨text, isColor⟩ := color
  cases text with
  | nil => exact isColor.elim
  | cons sign digits =>
      obtain ⟨rfl, count, areDigits⟩ := isColor
      refine ⟨digits, rfl, ?_, count, List.all_eq_true.mp areDigits⟩
      rintro rfl
      simp at count

/-- Hexadecimal digits are no keyword, and the number sign starts no comment. -/
theorem Color.isContent (color : Color) : IsContent color.val := by
  obtain ⟨digits, same, nonempty, -, areDigits⟩ := color.exists_digits
  have isWord : digits.all Text.isAsciiWordCharacter = true :=
    List.all_eq_true.mpr fun character member => (isWord_of_isHexDigit (areDigits _ member)).1
  have word := IsOption.word nonempty isWord
  rw [same]
  refine ⟨⟨⟨List.cons_ne_nil _ _, rfl, ?_⟩, by simpa using word.oneLine,
    .numberSign nonempty word.isPhrase.trimmed.start word.uncommented⟩, ?_⟩
  · rw [List.reverse_cons, Text.IsSpaced.startsWith_append (by simpa using nonempty)]
    exact word.isPhrase.trimmed.ending
  · intro keyword member position depth rest nonnegative stops
    have distinct := isDistinct_of_mem member
    simp only [isDistinct, Bool.and_eq_true] at distinct
    have digitsPass : Keyword.Passes keyword digits :=
      passes_of_all isWord (fun character known => (isWord_of_isHexDigit (areDigits _ known)).2)
        member distinct.2
    have level : Token.depthChange '#' = 0 := rfl
    rw [List.cons_append, Keyword.findFrom_cons (by decide) (by decide), level, Int.add_zero,
      digitsPass _ _ _ nonnegative stops, List.length_cons]
    congr 1
    omega

end Canonical
end Joinery
