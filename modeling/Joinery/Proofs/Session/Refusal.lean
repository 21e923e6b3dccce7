import Joinery.Proofs.Session.Success

/-!
# What refused commands leave

A refused definition leaves nothing. A refused board command leaves nothing but the
warning about its width, which it may have given before it was refused.
-/

namespace Joinery

namespace Step

variable {step : Step}

/-- A board command that is not refused adds a board. -/
theorem isSome_board?_of_failure?_eq_none
    (accepted : step.failure? = none)
    (warned : step.warning?.isSome = true) :
    step.board?.isSome = true := by
  have kind : step.command.kind = .board := by
    by_contra other
    rw [warning?, creation?_of_kind_ne other] at warned
    cases warned
  rw [failure?, obey_of_board kind] at accepted
  rw [board?, creation?, if_pos kind, Option.bind_some]
  rcases Session.draw_cases step.before step.command.line step.command.text with
    ⟨failure, drawn⟩ | ⟨heading, draft, board, drafted, built, -⟩
  · rw [drawn] at accepted
    cases accepted
  · have placed : Creation.board? ⟨step.before, step.command.line, step.command.text⟩ =
        some board :=
      Creation.board?_eq_some_iff.mpr ⟨heading, draft, drafted, built⟩
    rw [placed]
    rfl

/-- A refused command reports its refusal alone exactly if it gave no warning. -/
theorem length_problems_eq_one_iff
    (refused : step.failure?.isSome = true) :
    step.problems.length = 1 ↔ step.warning? = none := by
  obtain ⟨failure, known⟩ := Option.isSome_iff_exists.mp refused
  rw [problems, refusal?, known]
  cases step.warning? <;> simp

end Step

namespace Session

/-- Only a warning makes a difference. -/
theorem warn_eq_self_iff {session : Session} {line : Int} {text : Text} :
    session.warn line text = session ↔ session.warning? line text = none := by
  unfold warn
  cases session.warning? line text with
  | none => simp
  | some event =>
      simp only [reduceCtorEq, iff_false]
      intro same
      have length := congrArg (fun other => other.events.length) same
      simp at length

theorem draw_of_refused
    {session : Session}
    {line : Int}
    {text : Text}
    (refused : (session.perform (.draw line text)).2.isSome = true) :
    (session.perform (.draw line text)).1 = session.warn line text := by
  simp only [perform] at refused ⊢
  rcases draw_cases session line text with ⟨failure, drawn⟩ | ⟨_, _, _, -, -, drawn⟩
  · rw [drawn]
  · rw [drawn] at refused
    cases refused

theorem define_of_refused
    {session : Session}
    {line : Text}
    (refused : (session.perform (.define line)).2.isSome = true) :
    (session.perform (.define line)).1 = session := by
  cases defined : session.define line with
  | error failure => simp only [perform, defined]
  | ok after => simp [perform, defined] at refused

/-- In every session, a refused definition leaves the session as it was, and a refused
board command leaves it exactly if it gave no warning; otherwise the warning stays, and
nothing else. So a refused command of a design is one problem, and a warning belongs to a
board, exactly if no refused command of the design gave a warning. -/
theorem refused_commands_leave_warnings
    (session : Session)
    (line : Int)
    (command text : Text) :
    ((session.perform (.define command)).2.isSome = true →
        (session.perform (.define command)).1 = session) ∧
      ((session.perform (.draw line command)).2.isSome = true →
        (session.perform (.draw line command)).1 =
            { session with
              events := session.events ++ (session.warning? line command).toList } ∧
          ((session.perform (.draw line command)).1 = session ↔
            session.warning? line command = none)) ∧
      ∀ design, (readDesign text).2 = .ok design →
        let steps := (new text).readingSteps
        design.problems = steps.flatMap Step.problems ∧
          design.boards = steps.filterMap Step.board? ∧
          ((∀ step ∈ steps, step.failure?.isSome = true → step.problems.length = 1) ∧
              (∀ step ∈ steps, step.warning?.isSome = true → step.board?.isSome = true) ↔
            ∀ step ∈ steps, step.failure?.isSome = true → step.warning? = none) := by
  refine ⟨define_of_refused, fun refused => ?_, fun design found => ?_⟩
  · rw [draw_of_refused refused]
    exact ⟨rfl, warn_eq_self_iff⟩
  · obtain ⟨-, boards, problems, -⟩ := design_of_readDesign found
    refine ⟨problems, boards, ?_, fun unwarned => ⟨?_, ?_⟩⟩
    · rintro ⟨single, -⟩ step member refused
      exact (Step.length_problems_eq_one_iff refused).mp (single step member refused)
    · intro step member refused
      exact (Step.length_problems_eq_one_iff refused).mpr (unwarned step member refused)
    · intro step member warned
      -- A refused command gave no warning, so this command was not refused.
      refine Step.isSome_board?_of_failure?_eq_none ?_ warned
      by_contra refused
      rw [unwarned step member (Option.isSome_iff_ne_none.mpr refused)] at warned
      cases warned

/-- A board command with a wrong width and a wrong view leaves a warning without a
board. -/
theorem exists_warning_of_refused_command :
    ¬ ∀ (text : Text) (operations : List Operation) (line : Int) (command : Text),
      let session := (new text).run operations
      (session.perform (.draw line command)).2.isSome = true →
        (session.perform (.draw line command)).1 = session := by
  intro always
  have same := always [] [] 1 "board 10 x 1 x 1 \"a\" from 0,0 to 5,0 view q".toList
    (by decide +kernel)
  exact absurd same (by decide +kernel)

end Session
end Joinery
