import Joinery.Proofs.Session.Run

/-!
# Readings that succeed

A reading goes on behind every refused command, and gives the boards, the problems and
the definitions of all its steps, unless a board command breaks it off.
-/

namespace Joinery
namespace Session

theorem readingSteps_new (text : Text) :
    (new text).readingSteps = { new text with isSpent := true }.steps (commands text) :=
  if_neg (by simp [new])

/-- The design of a text, if its commands are all read. -/
theorem readDesign_eq (text : Text) :
    (readDesign text).2 =
      ({ new text with isSpent := true }.obeyAll (commands text)).2.map fun _ =>
        ({ new text with isSpent := true }.obeyAll (commands text)).1.design := by
  have fresh : (new text).isSpent = false := rfl
  rw [readDesign, read_of_not_isSpent fresh]
  rfl

/-- A design has the boards, the problems and the definitions of all its steps. -/
theorem design_of_readDesign
    {text : Text}
    {design : Design}
    (found : (readDesign text).2 = .ok design) :
    (new text).readingSteps.map (·.command) = commands text ∧
      design.boards = (new text).readingSteps.filterMap Step.board? ∧
      design.problems = (new text).readingSteps.flatMap Step.problems ∧
      design.definitionCount = (new text).readingSteps.countP Step.defines := by
  rw [readDesign_eq] at found
  cases outcome : ({ new text with isSpent := true }.obeyAll (commands text)).2 with
  | error failure =>
      rw [outcome] at found
      cases found
  | ok done =>
      rw [outcome] at found
      cases found
      obtain ⟨all, problems, count⟩ := obeyAll_of_isOk outcome
      have grown := extends_obeyAll { new text with isSpent := true } (commands text)
      rw [readingSteps_new]
      exact ⟨all, grown.boards, problems, count.trans (Nat.zero_add _)⟩

/-- A design is read exactly if no board command breaks off the reading, because of an
endless segment or a strange side. It has a step for each command of the text, and every
step that is refused is reported. -/
theorem readDesign_succeeds_iff (text : Text) :
    (∃ design, (readDesign text).2 = .ok design ∧
        (new text).readingSteps.map (·.command) = commands text ∧
        design.boards = (new text).readingSteps.filterMap Step.board? ∧
        design.problems = (new text).readingSteps.flatMap Step.problems ∧
        design.definitionCount = (new text).readingSteps.countP Step.defines) ↔
      ∀ step ∈ (new text).readingSteps, ¬ step.BreaksOff := by
  have sound : ({ new text with isSpent := true } : Session).IsSound := isSound_new text
  rw [readingSteps_new, ← obeyAll_isOk_iff sound, ← readingSteps_new]
  constructor
  · rintro ⟨design, found, -⟩
    rw [readDesign_eq] at found
    cases outcome : ({ new text with isSpent := true }.obeyAll (commands text)).2 with
    | error failure =>
        rw [outcome] at found
        cases found
    | ok done => rfl
  · intro ok
    have found := readDesign_eq text
    rw [ok] at found
    exact ⟨_, found, design_of_readDesign found⟩

/-- A cut on a side that is spelled with a small i without a dot breaks off the reading. -/
theorem exists_reading_without_design :
    ¬ ∀ text, ∃ design, (readDesign text).2 = .ok design := by
  intro always
  obtain ⟨design, found⟩ := always "board 1 x 1 x 1 \"a\" cut rıght 5\n$A = 1".toList
  have broken :
      (readDesign "board 1 x 1 x 1 \"a\" cut rıght 5\n$A = 1".toList).2.toOption.isSome =
        false := by
    decide +kernel
  rw [found] at broken
  cases broken

end Session
end Joinery
