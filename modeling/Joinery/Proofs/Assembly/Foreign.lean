import Joinery.Assembly
import Joinery.Proofs.Expression.Foreign

/-!
# Foreign characters in dimensions

What separates dimensions is white space and a letter. Every other character belongs to one
of the dimensions, and no dimension with a foreign character has a value. So a board whose
dimensions have one is refused.
-/

namespace Joinery

namespace Dimension

/-- A separator is a letter with white space around it. -/
theorem forall_mem_of_readSeparator
    {character : Char}
    {rest : Text}
    {separator : Separator}
    {count : Nat}
    (found : readSeparator character rest = some (separator, count)) :
    ∀ other ∈ character :: rest.take count,
      Text.isBlank other = true ∨ isSeparator other = true := by
  unfold readSeparator at found
  dsimp only at found
  split at found
  next letter after behind =>
    split at found
    next start further next =>
      obtain ⟨isLetter, same⟩ := Option.ite_none_right_eq_some.mp found
      cases same
      have front := List.prefix_iff_eq_append.mp
        (@List.takeWhile_prefix _ (character :: rest) Text.isBlank)
      rw [behind] at front
      have whole : ((character :: rest).takeWhile Text.isBlank ++
          letter :: after.takeWhile Text.isBlank) ++ after.dropWhile Text.isBlank =
            character :: rest := by
        rw [List.append_assoc, List.cons_append, List.takeWhile_append_dropWhile, front]
      have longer := congrArg List.length
        (@List.takeWhile_append_dropWhile _ Text.isBlank after)
      rw [List.length_append] at longer
      have taken := List.prefix_iff_eq_take.mp ⟨_, whole⟩
      have length : ((character :: rest).takeWhile Text.isBlank ++
          letter :: after.takeWhile Text.isBlank).length =
            ((character :: rest).takeWhile Text.isBlank).length +
              (after.length - (after.dropWhile Text.isBlank).length) + 1 := by
        rw [List.length_append, List.length_cons]
        omega
      rw [length, List.take_succ_cons] at taken
      intro other member
      rw [← taken, List.mem_append, List.mem_cons] at member
      rcases member with before | rfl | behind
      · exact Or.inl (List.all_eq_true.mp List.all_takeWhile other before)
      · exact Or.inr (Bool.and_eq_true_iff.mp isLetter).1
      · exact Or.inl (List.all_eq_true.mp List.all_takeWhile other behind)
    next => cases found
  next => cases found

/-- A character that separates nothing stays in one of the parts. -/
theorem exists_mem_of_splitFrom
    {before part : Text}
    {pieces : List (Text.Piece Separator)}
    {character : Char}
    (outside : ∀ separator text, .found separator text ∈ pieces → character ∉ text)
    (member : character ∈ part ∨ character ∈ pieces.flatMap Text.Piece.text) :
    ∃ dimension ∈ splitFrom before part pieces, character ∈ dimension := by
  induction pieces generalizing before part with
  | nil =>
      refine ⟨part.reverse, List.mem_singleton_self _, ?_⟩
      simpa using member
  | cons piece rest inductionHypothesis =>
      have later := fun separator text isPiece =>
        outside separator text (List.mem_cons_of_mem _ isPiece)
      rw [List.flatMap_cons, List.mem_append] at member
      cases piece with
      | other first =>
          refine inductionHypothesis later ?_
          rw [List.mem_cons]
          rcases member with begun | here | behind
          · exact Or.inl (Or.inr begun)
          · exact Or.inl (Or.inl (List.mem_singleton.mp here))
          · exact Or.inr behind
      | found separator text =>
          have absent := outside separator text List.mem_cons_self
          unfold splitFrom
          split
          · rcases member with begun | here | behind
            · exact ⟨_, List.mem_cons_self, List.mem_reverse.mpr begun⟩
            · exact absurd here absent
            · obtain ⟨dimension, isPart, inside⟩ :=
                inductionHypothesis later (Or.inr behind)
              exact ⟨dimension, List.mem_cons_of_mem _ isPart, inside⟩
          · refine inductionHypothesis later ?_
            rw [List.mem_append]
            rcases member with begun | here | behind
            · exact Or.inl (Or.inr begun)
            · exact absurd here absent
            · exact Or.inr behind

end Dimension

namespace IsForeign

variable {character : Char} (foreign : IsForeign character)
include foreign

theorem isBlank_eq_false : Text.isBlank character = false := by
  rw [← Bool.not_eq_true]
  intro blank
  exact foreign.ne_of_isAllowed (by simp [Arithmetic.isAllowed, blank]) rfl

/-- A foreign character of some dimensions is in one of them. -/
theorem exists_mem_of_splitDimensions
    {text : Text}
    (letter : Dimension.isSeparator character = false)
    (member : character ∈ text) :
    ∃ dimension ∈ splitDimensions text, character ∈ dimension := by
  refine Dimension.exists_mem_of_splitFrom (fun separator piece isPiece inside => ?_) (Or.inr ?_)
  · obtain ⟨first, rest, count, -, found, rfl⟩ := Text.exists_read_of_mem_pieces isPiece
    rcases Dimension.forall_mem_of_readSeparator found character inside with blank | isLetter
    · rw [foreign.isBlank_eq_false] at blank
      cases blank
    · rw [letter] at isLetter
      cases isLetter
  · rwa [Text.flatMap_text_pieces]

/-- The dimensions of a draft have no foreign character. -/
theorem not_mem_of_ofHeading
    {scope : Scope}
    {heading : Heading}
    {draft : Draft}
    (letter : Dimension.isSeparator character = false)
    (drafted : Draft.ofHeading scope heading = .ok draft) :
    character ∉ heading.dimensions := by
  intro member
  have inside : character ∈ Text.strip heading.dimensions := by
    obtain ⟨lead, trail, whole, leadBlank, trailBlank⟩ :=
      Text.exists_strip_append heading.dimensions
    have solid {gap : Text} (blank : gap.all Text.isBlank = true) : character ∉ gap := by
      intro inGap
      have isBlank := List.all_eq_true.mp blank character inGap
      rw [foreign.isBlank_eq_false] at isBlank
      cases isBlank
    rw [whole, List.mem_append, List.mem_append] at member
    exact (member.resolve_left (solid leadBlank)).resolve_right (solid trailBlank)
  obtain ⟨dimension, isPart, inside⟩ := foreign.exists_mem_of_splitDimensions letter inside
  simp only [Draft.ofHeading] at drafted
  split at drafted
  next width height depth parts =>
    obtain ⟨_, first, drafted⟩ := bind_eq_ok.mp drafted
    obtain ⟨_, second, drafted⟩ := bind_eq_ok.mp drafted
    obtain ⟨_, third, -⟩ := bind_eq_ok.mp drafted
    rw [parts] at isPart
    simp only [List.mem_cons, List.not_mem_nil, or_false] at isPart
    rcases isPart with rfl | rfl | rfl
    · exact foreign.not_mem_of_evaluate first inside
    · exact foreign.not_mem_of_evaluate second inside
    · exact foreign.not_mem_of_evaluate third inside
  next => cases drafted

end IsForeign
end Joinery
