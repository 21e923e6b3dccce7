import Joinery.Proofs.Canonical.Phrase

/-!
# Contents of canonical sections

Cuts are read pair by pair: a side ends at its blank, and a length at the next one. Letters
of faces are read in small letters, each at its first place, and a colour is read as it is
written.
-/

namespace Joinery
namespace Canonical

open Options

variable {scope : Scope}

/-! ## Cuts -/

/-- The cuts of a section are found in their order. -/
theorem found_cuts (cuts : List (Cut scope)) :
    Text.found readCut
        (Text.joined ' ' (cuts.flatMap fun cut => [cut.spelling.text, cut.length.text])) =
      cuts.map fun cut => .cut (some cut.side) cut.length.text := by
  induction cuts with
  | nil => rfl
  | cons cut others inductionHypothesis =>
      have lengthNonempty := cut.length.isContent.isPhrase.nonempty
      -- Behind the length the text ends, or it goes on with a blank.
      obtain ⟨rest, joined, stops, found⟩ : ∃ rest,
          Text.joined ' ' ((cut :: others).flatMap fun cut =>
            [cut.spelling.text, cut.length.text]) =
              cut.spelling.text ++ ' ' :: (cut.length.text ++ rest) ∧
          Text.startsWith (!Text.isBlank ·) rest = false ∧
          Text.found readCut rest = Text.found readCut (Text.joined ' '
            (others.flatMap fun cut => [cut.spelling.text, cut.length.text])) := by
        cases others with
        | nil => exact ⟨[], by simp [Text.joined, List.intercalate], rfl, rfl⟩
        | cons next further =>
            refine ⟨' ' :: Text.joined ' ' ((next :: further).flatMap fun cut =>
              [cut.spelling.text, cut.length.text]), ?_, rfl, ?_⟩
            · rw [List.flatMap_cons, List.cons_append, List.singleton_append,
                Text.joined_cons _ (List.cons_ne_nil _ _), Text.joined_cons]
              simp
            · exact found_readCut_cons (Text.isWordCharacter_of_isBlank (by decide)) _
      rw [joined, found_readCut_append cut.spelling lengthNonempty cut.solid stops, found,
        inductionHypothesis]
      rfl

theorem readLengths_cuts (cuts : List (Cut scope)) :
    readLengths scope (cuts.map fun cut => .cut (some cut.side) cut.length.text) =
      .ok (cuts.map fun cut => (some cut.side, cut.length.value)) := by
  induction cuts with
  | nil => rfl
  | cons cut others inductionHypothesis =>
      rw [List.map_cons, readLengths, cut.length.evaluates, inductionHypothesis]
      rfl

theorem combineCuts_cuts (start : Cuts Binary64) (cuts : List (Cut scope)) :
    combineCuts start (cuts.map fun cut => (some cut.side, cut.length.value)) =
      .ok (cuts.foldl (fun value cut => value.set cut.length.value cut.side) start) := by
  induction cuts generalizing start with
  | nil => rfl
  | cons cut others inductionHypothesis => exact inductionHypothesis _

theorem readCuts_cuts (cuts : CutList scope) :
    readCuts scope (Text.joined ' ' cuts.phrases) = .ok cuts.value := by
  obtain ⟨cuts, nonempty⟩ := cuts
  unfold readCuts CutList.phrases
  rw [found_cuts, readLengths_cuts]
  cases cuts with
  | nil => exact absurd rfl nonempty
  | cons cut others => exact combineCuts_cuts .none (cut :: others)

/-! ## View and colour -/

/-- A view keeps every letter at its first place. -/
theorem viewAfter_eq
    {letters : Text}
    (areFaces : ∀ letter ∈ letters, letter ∈ faceLetters)
    {view : Text}
    (nonempty : view ++ letters ≠ []) :
    viewAfter view letters =
      .ok (view ++ (letters.filter fun letter => !view.contains letter).eraseDups) := by
  induction letters generalizing view with
  | nil =>
      rw [List.append_nil] at nonempty
      rw [viewAfter, if_neg nonempty]
      simp
  | cons letter others inductionHypothesis =>
      obtain ⟨isFace, othersFaces⟩ := List.forall_mem_cons.mp areFaces
      rw [viewAfter, if_neg (not_not_intro isFace)]
      by_cases shown : letter ∈ view
      · rw [if_pos shown, inductionHypothesis othersFaces
          (List.append_ne_nil_of_left_ne_nil (List.ne_nil_of_mem shown) _),
          List.filter_cons_of_neg (by simpa using shown)]
      · have hidden : (fun other => !(view ++ [letter]).contains other) =
            fun other => !other == letter && !view.contains other := by
          funext other
          by_cases same : other = letter
          · simp [same]
          · simp [same]
        rw [if_neg shown, inductionHypothesis othersFaces (by simp),
          List.filter_cons_of_pos (by simpa using shown), List.eraseDups_cons,
          List.filter_filter, hidden, List.append_assoc]
        rfl

theorem normalizeView_letters (view : View) : normalizeView view.letters = .ok view.value := by
  have nonempty : [] ++ view.letters.map Char.toLower ≠ [] := by simpa using view.nonempty
  rw [normalizeView, Text.lower_of_isAsciiWordCharacter view.isWord, viewAfter_eq _ nonempty]
  · simp [View.value]
  · simpa using view.areFaces

theorem readColor?_color (color : Color) : Palette.readColor? color.val = some color.val := by
  obtain ⟨digits, same, -, count, areDigits⟩ := color.exists_digits
  have taken : digits.takeWhile Palette.isHexDigit = digits := by
    have all := Text.takeWhile_append_eq (List.all_eq_true.mpr areDigits) (Text.startsWith_nil _)
    rwa [List.append_nil] at all
  rw [same, Palette.readColor?]
  simp only [taken, count, if_true]

end Canonical
end Joinery
