import Joinery.Text.Blank
import Joinery.Text.Piece

/-!
# Taking texts apart

A text is taken apart piece by piece, and white space around it stays outside of the
pieces.
-/

namespace Joinery
namespace Text

variable {α : Type} {read : Reader α}

theorem piecesAfter_eq_drop (read : Reader α) (skip : Nat) (text : Text) :
    piecesAfter read skip text = pieces read (text.drop skip) := by
  induction text generalizing skip with
  | nil => cases skip <;> rfl
  | cons character rest inductionHypothesis =>
      cases skip with
      | zero => rfl
      | succ skip => exact inductionHypothesis skip

theorem pieces_of_read_eq_none
    {character : Char}
    {rest : Text}
    (unread : read character rest = none) :
    pieces read (character :: rest) = .other character :: pieces read rest := by
  simp [pieces, piecesAfter, unread]

theorem pieces_of_read_eq_some
    {character : Char}
    {rest : Text}
    {value : α}
    {count : Nat}
    (found : read character rest = some (value, count)) :
    pieces read (character :: rest) =
      .found value (character :: rest.take count) :: pieces read (rest.drop count) := by
  rw [← piecesAfter_eq_drop]
  simp [pieces, piecesAfter, found]

/-- A text is empty, or it starts with a character that is no piece, or with a piece. -/
@[elab_as_elim]
theorem pieces_induction
    {motive : Text → Prop}
    (read : Reader α)
    (text : Text)
    (nil : motive [])
    (other : ∀ character rest, read character rest = none → motive rest →
      motive (character :: rest))
    (found : ∀ character rest value count, read character rest = some (value, count) →
      motive (rest.drop count) → motive (character :: rest)) :
    motive text := by
  induction size : text.length using Nat.strongRecOn generalizing text with
  | ind size inductionHypothesis =>
      cases text with
      | nil => exact nil
      | cons character rest =>
          rw [List.length_cons] at size
          cases outcome : read character rest with
          | none => exact other _ _ outcome (inductionHypothesis _ (by omega) rest rfl)
          | some piece =>
              refine found _ _ piece.1 piece.2 outcome (inductionHypothesis _ ?_ _ rfl)
              rw [List.length_drop]
              omega

/-! ## Recognised pieces -/

/-- A recognised piece was read somewhere in the text. -/
theorem exists_read_of_mem_pieces
    {text piece : Text}
    {value : α}
    (member : .found value piece ∈ pieces read text) :
    ∃ character rest count, character :: rest <:+ text ∧
      read character rest = some (value, count) ∧ piece = character :: rest.take count := by
  induction text using pieces_induction read with
  | nil => cases member
  | other character rest unread inductionHypothesis =>
      rw [pieces_of_read_eq_none unread] at member
      rcases List.mem_cons.mp member with same | later
      · cases same
      · obtain ⟨first, others, count, behind, found⟩ := inductionHypothesis later
        exact ⟨first, others, count, behind.trans (List.suffix_cons _ _), found⟩
  | found character rest _ count found inductionHypothesis =>
      rw [pieces_of_read_eq_some found] at member
      rcases List.mem_cons.mp member with same | later
      · cases same
        exact ⟨character, rest, count, List.suffix_refl _, found, rfl⟩
      · obtain ⟨first, others, further, behind, found⟩ := inductionHypothesis later
        exact ⟨first, others, further,
          (behind.trans (List.drop_suffix count rest)).trans (List.suffix_cons _ _), found⟩

theorem found_of_read_eq_none
    {character : Char}
    {rest : Text}
    (unread : read character rest = none) :
    found read (character :: rest) = found read rest := by
  rw [found, pieces_of_read_eq_none unread]
  rfl

theorem found_of_read_eq_some
    {first : Char}
    {others rest : Text}
    {value : α}
    (known : read first (others ++ rest) = some (value, others.length)) :
    found read (first :: others ++ rest) = value :: found read rest := by
  rw [found, List.cons_append, pieces_of_read_eq_some known, List.drop_left]
  rfl

/-! ## White space -/

/-- White space at the end of a text is what stripping takes away. -/
theorem exists_stripEnd_append (text : Text) :
    ∃ blanks : Text, stripEnd text ++ blanks = text ∧
      ∀ character ∈ blanks, isBlank character = true := by
  refine ⟨(text.reverse.takeWhile isBlank).reverse, ?_, ?_⟩
  · rw [stripEnd, ← List.reverse_append, List.takeWhile_append_dropWhile, List.reverse_reverse]
  · intro character member
    exact List.all_eq_true.mp List.all_takeWhile _ (List.mem_reverse.mp member)

end Text
end Joinery
