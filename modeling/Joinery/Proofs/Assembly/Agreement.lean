import Joinery.Proofs.Assembly.Refusal
import Joinery.Proofs.Expression.Agreement
import Joinery.Proofs.Options.Part

/-!
# Boards in scopes that agree

A board is assembled in the same way in two scopes that agree on its heading, because all
of its expressions are parts of the heading.
-/

namespace Joinery

variable {left right : Scope}

namespace Options

section Readers

variable {text options : Text}

theorem readPoint_eq_of_agreeOn (agree : left.AgreeOn right text) :
    readPoint left text = readPoint right text := by
  have same (part : Text) (member : part ∈ splitCoordinates text) :
      evaluate left part = evaluate right part :=
    evaluate_eq_of_agreeOn (agree.part (infix_of_mem_splitCoordinates member))
  unfold readPoint
  split
  next x y z parts =>
    rw [parts] at same
    simp only [List.forall_mem_cons] at same
    simp only [same]
  next => rfl

theorem readSegment_eq_of_agreeOn (agree : left.AgreeOn right text) :
    readSegment left text = readSegment right text := by
  have same {whole : Text} (inside : whole <:+: text) (part : Text)
      (member : part ∈ splitCoordinates whole) : evaluate left part = evaluate right part :=
    evaluate_eq_of_agreeOn
      (agree.part ((infix_of_mem_splitCoordinates member).trans inside))
  unfold readSegment
  split
  next => rfl
  next position _ =>
    have starts := same ((Text.strip_isInfix _).trans (List.take_prefix position text).isInfix)
    have inside := (Keyword.takeSection_strip_isInfix (text.drop (position + 2))
      behindSegment).1.trans (List.drop_suffix _ text).isInfix
    have stops := same inside
    split
    next x1 y1 startParts =>
      rw [startParts] at starts
      dsimp only
      split
      next x2 y2 stopParts =>
        rw [stopParts] at stops
        simp only [List.forall_mem_cons] at starts stops
        simp only [starts, stops]
      next => rfl
    next => rfl

theorem readPosition_eq_of_agreeOn (agree : left.AgreeOn right options) :
    readPosition left options = readPosition right options := by
  unfold readPosition
  split
  next ends behind =>
    exact readSegment_eq_of_agreeOn (agree.part (Keyword.behind?_isInfix behind))
  next point _ behind =>
    have inside := (Keyword.takeSection_strip_isInfix point behindPosition).1.trans
      (Keyword.behind?_isInfix behind)
    dsimp only
    rw [readPoint_eq_of_agreeOn (agree.part inside)]
  next => rfl

theorem readLevel_eq_of_agreeOn (agree : left.AgreeOn right options) :
    readLevel left options = readLevel right options := by
  have inside := (Keyword.takeSection_strip_isInfix (options.drop 1) behindPosition).1.trans
    (List.drop_suffix 1 options).isInfix
  unfold readLevel
  dsimp only
  rw [evaluate_eq_of_agreeOn (agree.part inside)]

theorem readLengths_eq_of_forall
    {words : List CutWord}
    (same : ∀ side length, .cut side length ∈ words →
      evaluate left length = evaluate right length) :
    readLengths left words = readLengths right words := by
  induction words with
  | nil => rfl
  | cons word rest inductionHypothesis =>
      have later := inductionHypothesis fun side length member =>
        same side length (List.mem_cons_of_mem word member)
      cases word with
      | unrelated => exact later
      | cut side length =>
          rw [readLengths, readLengths, later, same side length List.mem_cons_self]

theorem takeCuts_eq_of_agreeOn (agree : left.AgreeOn right options) :
    takeCuts left options = takeCuts right options := by
  unfold takeCuts
  split
  next => rfl
  next text behind =>
    have inside := (Keyword.takeSection_strip_isInfix text behindCuts).1.trans
      (Keyword.behind?_isInfix behind)
    have lengths := readLengths_eq_of_forall fun side length member =>
      evaluate_eq_of_agreeOn (agree.part ((infix_of_mem_found member).trans inside))
    simp only [readCuts, lengths]

end Readers
end Options

namespace Draft

/-- Drafts in scopes that agree on a heading are the same. -/
theorem ofHeading_eq_of_agreeOn
    {heading : Heading}
    (dimensions : left.AgreeOn right heading.dimensions)
    (options : left.AgreeOn right heading.options) :
    ofHeading left heading = ofHeading right heading := by
  have same (part : Text) (member : part ∈ splitDimensions (Text.strip heading.dimensions)) :
      evaluate left part = evaluate right part :=
    evaluate_eq_of_agreeOn (dimensions.part
      ((infix_of_mem_splitDimensions member).trans (Text.strip_isInfix _)))
  have position := Options.readPosition_eq_of_agreeOn
    (options.part (Options.withoutComment_isInfix heading.options))
  simp only [ofHeading]
  split
  next width height depth parts =>
    rw [parts] at same
    simp only [List.forall_mem_cons] at same
    simp only [same, position]
  next => rfl

section Board

variable {draft : Draft}

theorem place_eq_of_agreeOn (agree : left.AgreeOn right draft.options) :
    draft.place left = draft.place right := by
  unfold place
  rw [Options.readLevel_eq_of_agreeOn agree]

/-- Boards in scopes that agree on the options of a draft are the same. -/
theorem board_eq_of_agreeOn
    (agree : left.AgreeOn right draft.options)
    (id name : Text)
    (index : Nat) :
    draft.board left id name index = draft.board right id name index := by
  unfold board
  rw [place_eq_of_agreeOn agree]
  cases placed : draft.place right with
  | error cause => rfl
  | ok found =>
      obtain ⟨placement, rest⟩ := found
      have cuts := Options.takeCuts_eq_of_agreeOn (agree.part (place_isInfix placed))
      simp only [bind, Except.bind, cuts]

end Board
end Draft
end Joinery
