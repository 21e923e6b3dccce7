import Joinery.Text.Basic
import Joinery.Text.Blank
import Joinery.Text.Lower
import Joinery.Text.Word

/-!
# Characters of white space

White space is a short list of characters, so what all of them have in common is found by
going through it: none belongs to a word, and each is its own small letter.
-/

namespace Joinery
namespace Text

/-- All characters of white space. -/
def blanks : Text :=
  blankRanges.flatMap fun range =>
    (List.range' range.1 (range.2 + 1 - range.1)).map Char.ofNat

theorem mem_blanks {character : Char} (blank : isBlank character = true) : character ∈ blanks := by
  obtain ⟨range, known, inside⟩ := List.any_eq_true.mp blank
  simp only [Bool.and_eq_true, decide_eq_true_eq] at inside
  refine List.mem_flatMap.mpr ⟨range, known, List.mem_map.mpr ⟨character.toNat, ?_, ?_⟩⟩
  · rw [List.mem_range'_1]
    omega
  · exact Char.ofNat_toNat character

/-- What holds of each character of white space. -/
theorem of_isBlank
    (holds : Char → Bool)
    (everywhere : blanks.all holds = true)
    {character : Char}
    (blank : isBlank character = true) :
    holds character = true :=
  List.all_eq_true.mp everywhere character (mem_blanks blank)

theorem isWordCharacter_of_isBlank
    {character : Char}
    (blank : isBlank character = true) :
    isWordCharacter character = false := by
  have apart := of_isBlank (!isWordCharacter ·) (by decide +kernel) blank
  simpa using apart

/-- White space stays in small letters. -/
theorem mem_lower_of_isBlank
    {text : Text}
    {character : Char}
    (blank : isBlank character = true)
    (member : character ∈ text) :
    character ∈ lower text := by
  have same := of_isBlank
    (fun other => other != 'İ' && other != 'Σ' && lowerCharacter other == other)
    (by decide +kernel) blank
  simp only [Bool.and_eq_true, bne_iff_ne, beq_iff_eq] at same
  unfold lower
  generalize [] = before
  induction text generalizing before with
  | nil => cases member
  | cons first rest inductionHypothesis =>
      rw [lowerAfter, List.mem_append]
      rcases List.mem_cons.mp member with rfl | later
      · refine Or.inl ?_
        simp [same]
      · exact Or.inr (inductionHypothesis later _)

end Text
end Joinery
