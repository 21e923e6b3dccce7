import Joinery.Proofs.Assembly.Cause
import Joinery.Proofs.Expression.Value

/-!
# Refusals of boards

Reading a board is recoverable, with two exceptions. A segment may be endless: the
thousandfold of its length is not finite. And a cut section may have a strange side: a
word that looks like the name of a side, but is none.
-/

namespace Joinery

open Binary64

/-- In a steady scope, expressions and parts with a wrong form have mild causes. -/
theorem Scope.IsSteady.covers {scope : Scope} (steady : scope.IsSteady) :
    Covers (·.isFatal = false) scope where
  expressions := recoverable_evaluate steady
  forms cause isOfForm := by
    cases cause <;> first | rfl | cases isOfForm

namespace Options

/-! ## Positions -/

section Ends

variable {scope : Scope} {text rest : Text} {x1 y1 x2 y2 : Binary64}

theorem within_readSegment
    (found : readSegment scope text = .ok (.segment x1 y1 x2 y2, rest)) :
    (Within (5 * scale) x1 ∧ Within (5 * scale) y1) ∧
      Within (5 * scale) x2 ∧ Within (5 * scale) y2 := by
  unfold readSegment at found
  split at found
  · cases found
  split at found
  · split at found
    split at found
    · obtain ⟨_, first, found⟩ := bind_eq_ok.mp found
      obtain ⟨_, second, found⟩ := bind_eq_ok.mp found
      obtain ⟨_, third, found⟩ := bind_eq_ok.mp found
      obtain ⟨_, fourth, found⟩ := bind_eq_ok.mp found
      cases found
      exact ⟨⟨within_evaluate first, within_evaluate second⟩, within_evaluate third,
        within_evaluate fourth⟩
    · cases found
  · cases found

theorem readPoint_ne_segment :
    readPoint scope text ≠ .ok (.segment x1 y1 x2 y2) := by
  intro found
  unfold readPoint at found
  split at found
  · obtain ⟨_, -, found⟩ := bind_eq_ok.mp found
    obtain ⟨_, -, found⟩ := bind_eq_ok.mp found
    obtain ⟨_, -, found⟩ := bind_eq_ok.mp found
    cases found
  · cases found

/-- The ends of a segment are far below the limit. -/
theorem within_readPosition
    (found : readPosition scope text = .ok (.segment x1 y1 x2 y2, rest)) :
    (Within (5 * scale) x1 ∧ Within (5 * scale) y1) ∧
      Within (5 * scale) x2 ∧ Within (5 * scale) y2 := by
  unfold readPosition at found
  split at found
  · exact within_readSegment found
  · obtain ⟨position, point, same⟩ := bind_eq_ok.mp found
    cases same
    exact (readPoint_ne_segment point).elim
  · cases found

end Ends

/-! ## Cuts -/

/-- The section of the cuts, if the options have one. -/
def cutSection? (options : Text) : Option Text :=
  (Keyword.behind? options "cut".toList).map fun text =>
    (Keyword.takeSection (Text.strip text) behindCuts).1

/-- A section of cuts with a word that looks like the name of a side but is none, where
every length has a value. -/
def HasStrangeSide (scope : Scope) (cuts : Text) : Prop :=
  (∃ length, CutWord.cut none length ∈ Text.found readCut cuts) ∧
    ∀ side length, CutWord.cut side length ∈ Text.found readCut cuts →
      ∃ value, evaluate scope length = .ok value

/-- All lengths are read if each of them has a value. -/
theorem readLengths_isOk_iff (scope : Scope) (words : List CutWord) :
    (∃ lengths, readLengths scope words = .ok lengths) ↔
      ∀ side length, CutWord.cut side length ∈ words →
        ∃ value, evaluate scope length = .ok value := by
  induction words with
  | nil => simp [readLengths]
  | cons word rest inductionHypothesis =>
      cases word with
      | unrelated => simp [readLengths, inductionHypothesis]
      | cut side length =>
          constructor
          · rintro ⟨lengths, found⟩ other text membership
            obtain ⟨value, evaluated, found⟩ := bind_eq_ok.mp found
            obtain ⟨others, found, -⟩ := bind_eq_ok.mp found
            rcases List.mem_cons.mp membership with same | membership
            · cases same
              exact ⟨value, evaluated⟩
            · exact inductionHypothesis.mp ⟨others, found⟩ other text membership
          · intro values
            obtain ⟨value, evaluated⟩ := values side length List.mem_cons_self
            obtain ⟨others, found⟩ := inductionHypothesis.mpr fun other text membership =>
              values other text (List.mem_cons_of_mem _ membership)
            exact ⟨(side, value) :: others, bind_eq_ok.mpr
              ⟨value, evaluated, bind_eq_ok.mpr ⟨others, found, rfl⟩⟩⟩

/-- Lengths that are read belong to the sides of the words. -/
theorem mem_readLengths_iff
    {scope : Scope}
    {words : List CutWord}
    {lengths : List (Option Side × Binary64)}
    (found : readLengths scope words = .ok lengths)
    (side : Option Side) :
    (∃ value, (side, value) ∈ lengths) ↔ ∃ length, CutWord.cut side length ∈ words := by
  induction words generalizing lengths with
  | nil =>
      cases found
      simp
  | cons word rest inductionHypothesis =>
      cases word with
      | unrelated =>
          rw [inductionHypothesis found]
          simp
      | cut other length =>
          obtain ⟨value, -, found⟩ := bind_eq_ok.mp found
          obtain ⟨others, othersFound, same⟩ := bind_eq_ok.mp found
          cases same
          have inOthers := inductionHypothesis othersFound
          simp only [List.mem_cons, Prod.mk.injEq, CutWord.cut.injEq, exists_or, inOthers]
          simp

/-- Only a missing side refuses to be combined. -/
theorem combineCuts_eq_error_iff
    (cuts : Cuts Binary64)
    (lengths : List (Option Side × Binary64))
    (cause : Cause) :
    combineCuts cuts lengths = .error cause ↔
      cause = .unknownSide ∧ ∃ value, (none, value) ∈ lengths := by
  induction lengths generalizing cuts with
  | nil => simp [combineCuts]
  | cons entry rest inductionHypothesis =>
      obtain ⟨side, value⟩ := entry
      cases side with
      | none =>
          simp only [combineCuts, Except.error.injEq, List.mem_cons]
          constructor
          · rintro rfl
            exact ⟨rfl, value, Or.inl rfl⟩
          · rintro ⟨rfl, -⟩
            rfl
      | some side => simp [combineCuts, inductionHypothesis]

/-- Cuts have a fatal cause exactly for a strange side. -/
theorem readCuts_isFatal_iff
    {scope : Scope}
    {cause : Cause}
    (steady : scope.IsSteady)
    (fatal : cause.isFatal = true)
    (cuts : Text) :
    readCuts scope cuts = .error cause ↔
      cause = .unknownSide ∧ HasStrangeSide scope cuts := by
  unfold readCuts HasStrangeSide
  rw [← readLengths_isOk_iff, bind_eq_error]
  -- All lengths are read before a side is refused, so a wrong length comes first.
  constructor
  · rintro (failed | ⟨lengths, found, failed⟩)
    · have mild := failsWith_readLengths steady.covers _ cause failed
      simp [mild] at fatal
    · split at failed
      · cases failed
        simp [Cause.isFatal] at fatal
      · obtain ⟨same, strange⟩ := (combineCuts_eq_error_iff _ _ _).mp failed
        exact ⟨same, (mem_readLengths_iff found none).mp strange, lengths, found⟩
  · rintro ⟨same, strange, lengths, found⟩
    obtain ⟨value, membership⟩ := (mem_readLengths_iff found none).mpr strange
    refine Or.inr ⟨lengths, found, ?_⟩
    split
    · simp at membership
    · exact (combineCuts_eq_error_iff _ _ _).mpr ⟨same, value, membership⟩

/-- Options have a fatal cause in their cuts exactly for a strange side. -/
theorem takeCuts_isFatal_iff
    {scope : Scope}
    {cause : Cause}
    (steady : scope.IsSteady)
    (fatal : cause.isFatal = true)
    (options : Text) :
    takeCuts scope options = .error cause ↔
      cause = .unknownSide ∧ ∃ cuts, cutSection? options = some cuts ∧
        HasStrangeSide scope cuts := by
  unfold takeCuts cutSection?
  cases Keyword.behind? options "cut".toList with
  | none => simp
  | some text =>
      simp only [Option.map_some, Option.some.injEq, exists_eq_left']
      rw [← readCuts_isFatal_iff steady fatal, bind_eq_error]
      constructor
      · rintro (failed | ⟨cuts, -, failed⟩)
        · exact failed
        · cases failed
      · exact Or.inl

end Options

namespace Draft

/-- A draft with a segment that is too long to be rounded, behind which the level has a
value. -/
def IsEndless (scope : Scope) (draft : Draft) : Prop :=
  ∃ x1 y1 x2 y2, draft.position = .segment x1 y1 x2 y2 ∧
    (∃ level, Options.readLevel scope draft.options = .ok level) ∧
    (lengthOf x1 y1 x2 y2 * 1000 + half).isFinite = false

/-- A draft that can be placed, and a strange side in the cuts behind its position. -/
def HasStrangeSide (scope : Scope) (draft : Draft) : Prop :=
  ∃ placement options cuts, draft.place scope = .ok (placement, options) ∧
    Options.cutSection? options = some cuts ∧ Options.HasStrangeSide scope cuts

/-- The position of a draft comes from the options of its heading. -/
theorem readPosition_of_ofHeading
    {scope : Scope}
    {heading : Heading}
    {draft : Draft}
    (drafted : ofHeading scope heading = .ok draft) :
    Options.readPosition scope (Options.withoutComment heading.options) =
      .ok (draft.position, draft.options) := by
  simp only [ofHeading] at drafted
  split at drafted
  · obtain ⟨width, -, drafted⟩ := bind_eq_ok.mp drafted
    obtain ⟨height, -, drafted⟩ := bind_eq_ok.mp drafted
    obtain ⟨depth, -, drafted⟩ := bind_eq_ok.mp drafted
    obtain ⟨position, found, same⟩ := bind_eq_ok.mp drafted
    cases same
    exact found
  · cases drafted

/-- The length of a segment that was read can be rounded to an integer for a notice. -/
theorem notice?_isOk
    {scope : Scope}
    {heading : Heading}
    {draft : Draft}
    (drafted : ofHeading scope heading = .ok draft) :
    ∃ notice, draft.notice? = .ok notice := by
  have found := readPosition_of_ofHeading drafted
  unfold notice?
  split
  next x1 y1 x2 y2 segment =>
    rw [segment] at found
    obtain ⟨⟨x1Within, y1Within⟩, x2Within, y2Within⟩ := Options.within_readPosition found
    have known := floor?_distance_isSome x1Within y1Within x2Within y2Within
    obtain ⟨rounded, known⟩ := Option.isSome_iff_exists.mp known
    simp only [lengthOf, known]
    split
    · exact ⟨_, rfl⟩
    · exact ⟨_, rfl⟩
  next => exact ⟨none, rfl⟩

section Fatal

variable {scope : Scope} {cause : Cause}
variable (steady : scope.IsSteady) (fatal : cause.isFatal = true)
include steady fatal

/-- A draft has a fatal cause in its place exactly if it is endless. -/
theorem place_isFatal_iff (draft : Draft) :
    draft.place scope = .error cause ↔ cause = .tooLong ∧ draft.IsEndless scope := by
  unfold place IsEndless
  cases position : draft.position with
  | unset => simp
  | point x y z => simp
  | segment x1 y1 x2 y2 =>
      have rounds := roundThousandths_isOk_iff (lengthOf x1 y1 x2 y2)
      simp only [bind_eq_error]
      constructor
      · rintro (failed | ⟨⟨level, options⟩, found, failed⟩)
        · have mild := Options.failsWith_readLevel steady.covers _ cause failed
          simp [mild] at fatal
        · refine ⟨?_, x1, y1, x2, y2, rfl, ⟨_, found⟩, ?_⟩
          · split at failed
            · cases failed
            · cases failed
              rfl
          · split at failed
            · cases failed
            next fault length =>
              simp only [length, reduceCtorEq, exists_false, false_iff,
                Bool.not_eq_true] at rounds
              exact rounds
      · rintro ⟨rfl, _, _, _, _, same, ⟨⟨level, options⟩, found⟩, endless⟩
        cases same
        refine Or.inr ⟨⟨level, options⟩, found, ?_⟩
        split
        next width length => simp [endless, length] at rounds
        next => rfl

/-- A board has a fatal cause exactly if its draft is endless or has a strange side. -/
theorem board_isFatal_iff (id name : Text) (index : Nat) (draft : Draft) :
    draft.board scope id name index = .error cause ↔
      (cause = .tooLong ∧ draft.IsEndless scope) ∨
        (cause = .unknownSide ∧ draft.HasStrangeSide scope) := by
  unfold board HasStrangeSide
  rw [bind_eq_error, place_isFatal_iff steady fatal]
  refine or_congr Iff.rfl ?_
  constructor
  · rintro ⟨⟨placement, options⟩, placed, failed⟩
    rcases bind_eq_error.mp failed with failed | ⟨⟨cuts, options⟩, -, failed⟩
    · obtain ⟨same, cuts, strange⟩ :=
        (Options.takeCuts_isFatal_iff steady fatal _).mp failed
      exact ⟨same, placement, options, cuts, placed, strange⟩
    · rcases bind_eq_error.mp failed with failed | ⟨view, -, failed⟩
      · have mild := Options.failsWith_takeView steady.covers _ cause failed
        simp [mild] at fatal
      · cases failed
  · rintro ⟨same, placement, options, cuts, placed, strange⟩
    refine ⟨(placement, options), placed, bind_eq_error.mpr (Or.inl ?_)⟩
    exact (Options.takeCuts_isFatal_iff steady fatal _).mpr ⟨same, cuts, strange⟩

end Fatal
end Draft
end Joinery
