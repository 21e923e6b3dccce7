import Joinery.Assembly
import Joinery.Proofs.Expression.Cause

/-!
# Causes of refused boards

A board is refused because of one of its expressions, or because one of its parts is
missing or wrong. So a command that is refused because of its form or its id is refused
before its board is read.
-/

namespace Joinery

namespace Cause

/-- Whether a cause says that a part of a board is missing or has the wrong form. -/
def isOfForm : Cause → Bool
  | .dimensionCount _ _ | .positionCount | .missingEnd | .startCount | .endCount | .noCut
  | .unknownFace _ | .noFace => true
  | _ => false

/-- Whether a board can be refused with a cause. -/
def isOfBoard : Cause → Bool
  | .tooLong | .unknownSide => true
  | cause => cause.isOfExpression || cause.isOfForm

end Cause

/-! ## Parts of boards -/

/-- A kind of causes that has those of all expressions of a scope, and those of parts with
a wrong form. -/
structure Covers (kind : Cause → Prop) (scope : Scope) : Prop where
  expressions : ∀ text, FailsWith kind (evaluate scope text)
  forms : ∀ cause : Cause, cause.isOfForm = true → kind cause

namespace Options

section Parts

variable {kind : Cause → Prop} {scope : Scope} (covers : Covers kind scope)
include covers

theorem failsWith_readPoint (text : Text) : FailsWith kind (readPoint scope text) := by
  unfold readPoint
  split
  · exact (covers.expressions _).bind fun _ _ =>
      (covers.expressions _).bind fun _ _ =>
        (covers.expressions _).bind fun _ _ => failsWith_ok _
  · exact failsWith_error (covers.forms _ rfl)

theorem failsWith_readSegment (text : Text) : FailsWith kind (readSegment scope text) := by
  unfold readSegment
  split
  · exact failsWith_error (covers.forms _ rfl)
  · split
    · split
      split
      · exact (covers.expressions _).bind fun _ _ =>
          (covers.expressions _).bind fun _ _ =>
            (covers.expressions _).bind fun _ _ =>
              (covers.expressions _).bind fun _ _ => failsWith_ok _
      · exact failsWith_error (covers.forms _ rfl)
    · exact failsWith_error (covers.forms _ rfl)

theorem failsWith_readPosition (options : Text) :
    FailsWith kind (readPosition scope options) := by
  unfold readPosition
  split
  · exact failsWith_readSegment covers _
  · exact (failsWith_readPoint covers _).bind fun _ _ => failsWith_ok _
  · exact failsWith_ok _

theorem failsWith_readLevel (options : Text) : FailsWith kind (readLevel scope options) := by
  unfold readLevel
  split
  · exact (covers.expressions _).bind fun _ _ => failsWith_ok _
  · exact failsWith_ok _

theorem failsWith_readLengths (words : List CutWord) :
    FailsWith kind (readLengths scope words) := by
  induction words with
  | nil => exact failsWith_ok []
  | cons word rest inductionHypothesis =>
      cases word with
      | unrelated => exact inductionHypothesis
      | cut side length =>
          exact (covers.expressions length).bind fun _ _ =>
            inductionHypothesis.bind fun _ _ => failsWith_ok _

theorem failsWith_viewAfter (view letters : Text) : FailsWith kind (viewAfter view letters) := by
  induction letters generalizing view with
  | nil =>
      unfold viewAfter
      split
      · exact failsWith_error (covers.forms _ rfl)
      · exact failsWith_ok view
  | cons letter rest inductionHypothesis =>
      unfold viewAfter
      split
      · exact failsWith_error (covers.forms _ rfl)
      · exact inductionHypothesis _

theorem failsWith_takeView (options : Text) : FailsWith kind (takeView options) := by
  unfold takeView
  split
  · exact failsWith_ok _
  · exact (failsWith_viewAfter covers _ _).bind fun _ _ => failsWith_ok _

end Parts
end Options

theorem Draft.failsWith_ofHeading
    {kind : Cause → Prop}
    {scope : Scope}
    (covers : Covers kind scope)
    (heading : Heading) :
    FailsWith kind (ofHeading scope heading) := by
  simp only [ofHeading]
  split
  · exact (covers.expressions _).bind fun _ _ =>
      (covers.expressions _).bind fun _ _ =>
        (covers.expressions _).bind fun _ _ =>
          (Options.failsWith_readPosition covers _).bind fun _ _ => failsWith_ok _
  · exact failsWith_error (covers.forms _ rfl)

/-! ## Boards -/

/-- An attempt that is refused as a board only. -/
abbrev FailsAsBoard {α : Type} (attempt : Except Cause α) : Prop :=
  FailsWith (·.isOfBoard = true) attempt

theorem covers_isOfBoard (scope : Scope) : Covers (·.isOfBoard = true) scope where
  expressions text := (failsAsExpression_evaluate scope text).mono fun cause isOfExpression => by
    cases cause <;> first | rfl | cases isOfExpression
  forms cause isOfForm := by
    cases cause <;> first | rfl | cases isOfForm

theorem Options.failsAsBoard_combineCuts
    (cuts : Cuts Binary64)
    (lengths : List (Option Side × Binary64)) :
    FailsAsBoard (combineCuts cuts lengths) := by
  induction lengths generalizing cuts with
  | nil => exact failsWith_ok cuts
  | cons entry rest inductionHypothesis =>
      obtain ⟨side, length⟩ := entry
      cases side with
      | none => exact failsWith_error rfl
      | some side => exact inductionHypothesis _

theorem Options.failsAsBoard_takeCuts (scope : Scope) (options : Text) :
    FailsAsBoard (takeCuts scope options) := by
  unfold takeCuts
  split
  · exact failsWith_ok _
  · refine ((failsWith_readLengths (covers_isOfBoard scope) _).bind fun lengths _ => ?_).bind
      fun _ _ => failsWith_ok _
    split
    · exact failsWith_error rfl
    · exact failsAsBoard_combineCuts _ _

namespace Draft

theorem failsAsBoard_notice? (draft : Draft) : FailsAsBoard draft.notice? := by
  unfold notice?
  split
  · dsimp only
    split
    · split
      · exact failsWith_ok _
      · exact failsWith_error rfl
    · exact failsWith_ok _
  · exact failsWith_ok _

theorem failsAsBoard_place (scope : Scope) (draft : Draft) :
    FailsAsBoard (draft.place scope) := by
  unfold place
  split
  · exact failsWith_ok _
  · exact failsWith_ok _
  · refine (Options.failsWith_readLevel (covers_isOfBoard scope) _).bind fun _ _ => ?_
    dsimp only
    split
    · exact failsWith_ok _
    · exact failsWith_error rfl

/-- A draft becomes a board, or it is refused because of one of its parts. -/
theorem failsAsBoard_board
    (scope : Scope)
    (id name : Text)
    (index : Nat)
    (draft : Draft) :
    FailsAsBoard (draft.board scope id name index) :=
  (failsAsBoard_place scope draft).bind fun _ _ =>
    (Options.failsAsBoard_takeCuts scope _).bind fun _ _ =>
      (Options.failsWith_takeView (covers_isOfBoard scope) _).bind fun _ _ => failsWith_ok _

end Draft
end Joinery
