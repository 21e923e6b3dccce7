import Joinery.Proofs.Text.Digit
import Joinery.Proofs.Text.Spacing
import Joinery.Proofs.Token.Tail
import Joinery.Text.Lower

/-!
# Spelled words and phrases

A word can be spelled with capitals and small letters of ASCII. A phrase is a text
without white space at its ends. Phrases are joined by single blanks, and what is joined
is a phrase again.
-/

namespace Joinery
namespace Text

/-! ## Spelled words -/

/-- A way to spell a word of small letters. -/
structure Spelling (word : Text) where
  text : Text
  spells : text.map Char.toLower = word

/-- Lower case of ASCII goes character by character. -/
theorem lower_of_ascii
    {text : Text}
    (ascii : ∀ character ∈ text, character.toNat < 128) :
    lower text = text.map Char.toLower := by
  unfold lower
  generalize [] = before
  induction text generalizing before with
  | nil => rfl
  | cons first rest inductionHypothesis =>
      obtain ⟨small, others⟩ := List.forall_mem_cons.mp ascii
      have notDotted : (first == 'İ') = false := by
        rw [beq_eq_false_iff_ne]
        rintro rfl
        exact absurd small (by decide)
      have notSigma : (first == 'Σ') = false := by
        rw [beq_eq_false_iff_ne]
        rintro rfl
        exact absurd small (by decide)
      rw [lowerAfter, inductionHypothesis others, notDotted, notSigma, lowerCharacter,
        if_pos small]
      rfl

theorem lower_of_isAsciiWordCharacter
    {text : Text}
    (isWord : text.all isAsciiWordCharacter = true) :
    lower text = text.map Char.toLower := by
  refine lower_of_ascii fun character member => ?_
  have place := Token.toNat_of_isAsciiWordCharacter (List.all_eq_true.mp isWord character member)
  omega

/-- Only characters of words have small letters that are characters of words. -/
theorem isAsciiWordCharacter_of_toLower
    {character : Char}
    (isWord : isAsciiWordCharacter character.toLower = true) :
    isAsciiWordCharacter character = true := by
  by_cases capital : 65 ≤ character.toNat ∧ character.toNat ≤ 90
  · have isUpper : character.isUpper = true :=
      decide_eq_true ⟨UInt32.le_iff_toNat_le.mpr capital.1, UInt32.le_iff_toNat_le.mpr capital.2⟩
    have isAlpha : character.isAlpha = true := Bool.or_eq_true_iff.mpr (Or.inl isUpper)
    have isAlphanum : character.isAlphanum = true := Bool.or_eq_true_iff.mpr (Or.inl isAlpha)
    rw [isAsciiWordCharacter, isAlphanum, Bool.true_or]
  · rwa [toLower_eq_self (by omega)] at isWord

namespace Spelling

variable {word : Text} (spelling : Spelling word)

theorem all_isAsciiWordCharacter
    (isWord : word.all isAsciiWordCharacter = true) :
    spelling.text.all isAsciiWordCharacter = true := by
  refine List.all_eq_true.mpr fun character member => isAsciiWordCharacter_of_toLower ?_
  refine List.all_eq_true.mp isWord _ ?_
  rw [← spelling.spells]
  exact List.mem_map_of_mem member

theorem lower_text
    (isWord : word.all isAsciiWordCharacter = true) :
    lower spelling.text = word := by
  rw [lower_of_isAsciiWordCharacter (spelling.all_isAsciiWordCharacter isWord), spelling.spells]

theorem length_text : spelling.text.length = word.length := by
  have spells := congrArg List.length spelling.spells
  rwa [List.length_map] at spells

theorem text_ne_nil (nonempty : word ≠ []) : spelling.text ≠ [] := by
  intro empty
  rw [← spelling.spells, empty] at nonempty
  exact nonempty rfl

end Spelling

/-! ## Phrases -/

/-- A text that is not empty and has no white space at its ends. -/
structure IsPhrase (text : Text) : Prop where
  nonempty : text ≠ []
  trimmed : IsTrimmed text

/-- Texts with single characters between them. -/
def joined (separator : Char) (phrases : List Text) : Text := [separator].intercalate phrases

section Joined

variable {separator : Char}

@[simp] theorem joined_singleton (phrase : Text) : joined separator [phrase] = phrase := by
  simp [joined]

theorem joined_cons
    {phrases : List Text}
    (phrase : Text)
    (nonempty : phrases ≠ []) :
    joined separator (phrase :: phrases) = phrase ++ separator :: joined separator phrases := by
  cases phrases with
  | nil => exact absurd rfl nonempty
  | cons second others => simp [joined, List.intercalate]

theorem joined_append
    {first second : List Text}
    (firstNonempty : first ≠ [])
    (secondNonempty : second ≠ []) :
    joined separator (first ++ second) =
      joined separator first ++ separator :: joined separator second := by
  induction first with
  | nil => exact absurd rfl firstNonempty
  | cons phrase others inductionHypothesis =>
      rw [List.cons_append,
        joined_cons phrase (List.append_ne_nil_of_right_ne_nil _ secondNonempty)]
      cases others with
      | nil => rw [List.nil_append, joined_singleton]
      | cons next further =>
          rw [inductionHypothesis (List.cons_ne_nil _ _),
            joined_cons phrase (List.cons_ne_nil _ _), List.append_assoc, List.cons_append]

/-- What each of some phrases has and what a character between them keeps holds of them
together. -/
theorem joined_induction
    {motive : Text → Prop}
    {phrases : List Text}
    (nonempty : phrases ≠ [])
    (each : ∀ phrase ∈ phrases, motive phrase)
    (append : ∀ first second, motive first → motive second →
      motive (first ++ separator :: second)) :
    motive (joined separator phrases) := by
  induction phrases with
  | nil => exact absurd rfl nonempty
  | cons phrase others inductionHypothesis =>
      obtain ⟨first, rest⟩ := List.forall_mem_cons.mp each
      cases others with
      | nil =>
          rw [joined_singleton]
          exact first
      | cons next further =>
          rw [joined_cons phrase (List.cons_ne_nil _ _)]
          exact append _ _ first (inductionHypothesis (List.cons_ne_nil _ _) rest)

end Joined

/-- A word of characters of which none is white space is a phrase. -/
theorem isPhrase_of_forall
    {text : Text}
    (nonempty : text ≠ [])
    (solid : ∀ character ∈ text, isBlank character = false) :
    IsPhrase text :=
  ⟨nonempty, IsSpaced.IsWord.isTrimmed ⟨nonempty, solid⟩⟩

namespace IsPhrase

/-- Two phrases with anything between them are a phrase. -/
theorem append
    {first second : Text}
    (firstPhrase : IsPhrase first)
    (middle : Text)
    (secondPhrase : IsPhrase second) :
    IsPhrase (first ++ (middle ++ second)) := by
  refine ⟨List.append_ne_nil_of_left_ne_nil firstPhrase.nonempty _, ?_, ?_⟩
  · rw [IsSpaced.startsWith_append firstPhrase.nonempty]
    exact firstPhrase.trimmed.start
  · have nonempty := secondPhrase.nonempty
    rw [List.reverse_append, List.reverse_append, List.append_assoc,
      IsSpaced.startsWith_append (by simpa using nonempty)]
    exact secondPhrase.trimmed.ending

theorem joined
    {separator : Char}
    {phrases : List Text}
    (nonempty : phrases ≠ [])
    (each : ∀ phrase ∈ phrases, IsPhrase phrase) :
    IsPhrase (Text.joined separator phrases) :=
  joined_induction nonempty each fun _ _ first second => first.append [separator] second

theorem strip_eq {text : Text} (phrase : IsPhrase text) : strip text = text :=
  strip_eq_self phrase.trimmed

end IsPhrase

theorem strip_joined
    {phrases : List Text}
    (each : ∀ phrase ∈ phrases, IsPhrase phrase) :
    strip (joined ' ' phrases) = joined ' ' phrases := by
  by_cases empty : phrases = []
  · rw [empty]
    rfl
  · exact (IsPhrase.joined empty each).strip_eq

theorem strip_blank_cons (text : Text) : strip (' ' :: text) = strip text := rfl

theorem strip_append_blank
    {text : Text}
    (trimmed : IsTrimmed text) :
    strip (text ++ [' ']) = text := by
  have reverse : (text ++ [' ']).reverse = ' ' :: text.reverse := by simp
  cases text with
  | nil => rfl
  | cons first rest =>
      have started : stripStart (first :: rest ++ [' ']) = first :: rest ++ [' '] :=
        dropWhile_eq_self trimmed.start
      rw [strip, started, stripEnd, reverse,
        List.dropWhile_cons_of_pos (show isBlank ' ' = true by decide),
        dropWhile_eq_self trimmed.ending, List.reverse_reverse]

end Text
end Joinery
