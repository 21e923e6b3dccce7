import Mathlib.Data.List.Flatten
import Joinery.Proofs.Command.Order
import Joinery.Proofs.Session.Success
import Joinery.Proofs.Text.Spacing

/-!
# Account of a reading

Every command of a text that is read counts once: it defines a variable, it adds a board,
or it is refused. What is reported stands in the order of the commands, and every report
names the line of its command. A refusal is the last report of its command, and a command
that is not refused reports nothing but a wrong width.
-/

namespace Joinery

namespace Event

/-- The line of the command that an event belongs to. -/
def line : Event → Int
  | .refused line _ => line
  | .resized line _ _ => line
  | .placed line _ _ => line

/-- Whether an event belongs to the command of a line. -/
def isAt (line : Nat) (event : Event) : Bool := event.line = line

/-- The wording of an event starts with its line. -/
theorem exists_message_eq (event : Event) :
    ∃ rest, event.message.toList = "Line ".toList ++ (Text.ofInt event.line ++ rest) ∧
      Text.startsWith Char.isDigit rest = false := by
  have located (line : Int) (subject : Option Text) (more : Text) :
      ∃ rest, (location line subject).toList ++ ':' :: more =
          "Line ".toList ++ (Text.ofInt line ++ rest) ∧
        Text.startsWith Char.isDigit rest = false := by
    cases subject with
    | none => exact ⟨':' :: more, by simp [location], rfl⟩
    | some subject =>
        refine ⟨" (".toList ++ subject ++ ")".toList ++ ':' :: more, ?_, rfl⟩
        simp [location]
  cases event with
  | refused line failure =>
      obtain ⟨rest, same, stops⟩ := located line failure.subject
        (' ' :: failure.cause.message.toList)
      exact ⟨rest, by simpa [message, Event.line] using same, stops⟩
  | resized line name notice =>
      obtain ⟨rest, same, stops⟩ := located line (some name) (' ' :: notice.message.toList)
      exact ⟨rest, by simpa [message, Event.line] using same, stops⟩
  | placed line id name =>
      obtain ⟨rest, same, stops⟩ := located line none
        (" board ".toList ++ (Cause.bracketed id ++ " " ++ String.ofList name).toList)
      exact ⟨rest, by simpa [message, Event.line] using same, stops⟩

end Event

/-! ## Wrong widths -/

/-- A draft with a segment whose length is not within one of the width. -/
def Draft.HasWrongWidth (draft : Draft) : Prop :=
  ∃ x1 y1 x2 y2, draft.position = .segment x1 y1 x2 y2 ∧
    1 < (draft.width - lengthOf x1 y1 x2 y2).abs

/-- A draft of a heading gives a notice exactly for a wrong width. -/
theorem Draft.exists_notice?_iff
    {scope : Scope}
    {heading : Heading}
    {draft : Draft}
    (drafted : ofHeading scope heading = .ok draft) :
    (∃ notice, draft.notice? = .ok (some notice)) ↔ draft.HasWrongWidth := by
  obtain ⟨outcome, known⟩ := notice?_isOk drafted
  rw [known]
  unfold notice? at known
  unfold HasWrongWidth
  split at known
  next x1 y1 x2 y2 position =>
    rw [position]
    dsimp only at known
    split at known
    next wrong =>
      split at known
      next rounded floor =>
        cases known
        exact ⟨fun _ => ⟨x1, y1, x2, y2, rfl, wrong⟩, fun _ => ⟨_, rfl⟩⟩
      next => cases known
    next right =>
      cases known
      constructor
      · rintro ⟨_, same⟩
        cases same
      · rintro ⟨_, _, _, _, same, wrong⟩
        cases same
        exact absurd wrong right
  next other =>
    cases known
    constructor
    · rintro ⟨_, same⟩
      cases same
    · rintro ⟨x1, y1, x2, y2, position, -⟩
      exact absurd position (other x1 y1 x2 y2)

/-- A warning has the line of its board command. -/
theorem Session.line_of_warning?
    {session : Session}
    {line : Int}
    {text : Text}
    {event : Event}
    (warned : session.warning? line text = some event) :
    event.line = line := by
  unfold warning? at warned
  split at warned
  · cases warned
  · split at warned
    · cases warned
      rfl
    · cases warned

namespace Step

variable {step : Step}

/-- A board command whose draft has a wrong width. -/
def HasWrongWidth (step : Step) : Prop :=
  step.command.kind = .board ∧
    ∃ heading draft, step.before.draft? step.command.text = some (heading, draft) ∧
      draft.HasWrongWidth

theorem isSome_warning?_iff : step.warning?.isSome = true ↔ step.HasWrongWidth := by
  unfold warning? HasWrongWidth creation?
  split
  next kind =>
    rw [Option.bind_some, Session.warning?]
    cases drafted : step.before.draft? step.command.text with
    | none => simp [kind]
    | some found =>
        obtain ⟨heading, draft⟩ := found
        obtain ⟨-, -, known⟩ := Session.draft?_eq_some_iff.mp drafted
        simp only [kind, true_and, Option.some.injEq, Prod.mk.injEq]
        constructor
        · intro warned
          split at warned
          next notice noticed =>
            exact ⟨_, _, ⟨rfl, rfl⟩, (Draft.exists_notice?_iff known).mp ⟨notice, noticed⟩⟩
          next => cases warned
        · rintro ⟨_, _, ⟨rfl, rfl⟩, wrong⟩
          obtain ⟨notice, noticed⟩ := (Draft.exists_notice?_iff known).mpr wrong
          rw [noticed]
          rfl
  next kind => simp [kind]

/-! ## One command -/

/-- A command defines a variable, or it adds a board, or it is refused. -/
theorem counts_once (step : Step) :
    step.defines.toNat + step.board?.toList.length + step.failure?.isSome.toNat = 1 := by
  unfold defines
  cases kind : step.command.kind with
  | definition =>
      have noBoard : step.board? = none := by
        rw [board?, creation?_of_kind_ne (by simp [kind]), Option.bind_none]
      rcases obey_of_definition kind with ⟨_, _, -, accepted⟩ | ⟨failure, -, refused, -⟩
      · simp [noBoard, accepted]
      · simp [noBoard, refused]
  | board =>
      rw [board?, creation?, if_pos kind, Option.bind_some, failure?, obey_of_board kind]
      rcases Session.draw_cases step.before step.command.line step.command.text with
        ⟨failure, drawn⟩ | ⟨heading, draft, board, drafted, built, drawn⟩
      · have refused : Creation.board? ⟨step.before, step.command.line, step.command.text⟩ =
            none := by
          by_contra placed
          obtain ⟨board, placed⟩ := Option.ne_none_iff_exists'.mp placed
          obtain ⟨_, _, drafted, built⟩ := Creation.board?_eq_some_iff.mp placed
          rw [Session.draw_of_draft?_eq_some drafted, built] at drawn
          cases congrArg Prod.snd drawn
        simp [drawn, refused, Failure.of?]
      · have placed : Creation.board? ⟨step.before, step.command.line, step.command.text⟩ =
            some board :=
          Creation.board?_eq_some_iff.mpr ⟨heading, draft, drafted, built⟩
        simp [drawn, placed, Failure.of?]
  | unknown =>
      have noBoard : step.board? = none := by
        rw [board?, creation?_of_kind_ne (by simp [kind]), Option.bind_none]
      simp [noBoard, failure?, obey_of_unknown kind, Failure.of?]

/-- What a command reports has the line of the command. -/
theorem line_of_mem_problems {event : Event} (member : event ∈ step.problems) :
    event.line = step.command.line := by
  rcases List.mem_append.mp member with warned | refused
  · obtain ⟨creation, asked, warned⟩ := Option.bind_eq_some_iff.mp (Option.mem_toList.mp warned)
    obtain ⟨-, same⟩ := Option.ite_none_right_eq_some.mp asked
    cases same
    exact Session.line_of_warning? warned
  · obtain ⟨failure, -, rfl⟩ := Option.map_eq_some_iff.mp (Option.mem_toList.mp refused)
    rfl

/-- The refusal of a command is the last of its reports. -/
theorem getLast?_problems {failure : Failure} (refused : step.failure? = some failure) :
    step.problems.getLast? = some (.refused step.command.line failure) := by
  rw [problems, refusal?, refused]
  exact List.getLast?_concat

theorem problems_of_accepted (accepted : step.failure? = none) :
    step.problems = step.warning?.toList := by
  rw [problems, refusal?, accepted]
  exact List.append_nil _

end Step

namespace Session

/-! ## All commands -/

/-- Steps are definitions, boards and refusals. -/
theorem length_steps_eq (steps : List Step) :
    steps.length = steps.countP Step.defines + (steps.filterMap Step.board?).length +
      steps.countP (·.failure?.isSome) := by
  induction steps with
  | nil => rfl
  | cons step rest inductionHypothesis =>
      have once := step.counts_once
      have counted (flag : Bool) : (if flag = true then 1 else 0) = flag.toNat := by
        cases flag <;> rfl
      rw [List.length_cons, filterMap_board?_cons, List.length_append, List.countP_cons,
        List.countP_cons, counted, counted]
      omega

section Problems

variable {steps : List Step}
variable (increasing : steps.Pairwise (·.command.line < ·.command.line))
include increasing

/-- Reports stand in the order of their lines. -/
theorem pairwise_line_problems :
    ((steps.flatMap Step.problems).map Event.line).Pairwise (· ≤ ·) := by
  rw [List.pairwise_map, List.pairwise_flatMap]
  constructor
  · intro step _
    refine List.pairwise_of_forall_mem_list fun first isFirst second isSecond => ?_
    rw [Step.line_of_mem_problems isFirst, Step.line_of_mem_problems isSecond]
  · refine increasing.imp fun below first isFirst second isSecond => ?_
    rw [Step.line_of_mem_problems isFirst, Step.line_of_mem_problems isSecond]
    omega

/-- The reports with the line of a command are those of the command. -/
theorem filter_line_problems {step : Step} (member : step ∈ steps) :
    (steps.flatMap Step.problems).filter (Event.isAt step.command.line) =
      step.problems := by
  -- Reports of commands on other lines are filtered out.
  have others (rows : List Step)
      (apart : ∀ other ∈ rows, other.command.line ≠ step.command.line) :
      (rows.flatMap Step.problems).filter (Event.isAt step.command.line) =
        [] := by
    rw [List.filter_eq_nil_iff]
    intro event reported
    obtain ⟨other, isRow, reported⟩ := List.mem_flatMap.mp reported
    simpa [Event.isAt, Step.line_of_mem_problems reported] using apart other isRow
  obtain ⟨before, after, rfl⟩ := List.append_of_mem member
  obtain ⟨-, behind, apart⟩ := List.pairwise_append.mp increasing
  have own : step.problems.filter (Event.isAt step.command.line) =
      step.problems := by
    refine List.filter_eq_self.mpr fun event reported => ?_
    simp [Event.isAt, Step.line_of_mem_problems reported]
  rw [List.flatMap_append, List.flatMap_cons, List.filter_append, List.filter_append, own,
    others before, others after, List.nil_append, List.append_nil]
  · intro other later
    exact (List.rel_of_pairwise_cons behind later).ne'
  · intro other earlier
    exact (apart other earlier step List.mem_cons_self).ne

end Problems

/-- Every command of a text that is read counts once, as a definition, as a board or as a
refusal, and the boards stand in the order of their commands. Every report starts with the
line of its command, and these lines do not decrease. The last report of a refused command
is its refusal, and a command that is not refused reports nothing, unless its width is
wrong, and then once. -/
theorem reading_accounts_for_commands
    {text : Text}
    {design : Design}
    (found : (readDesign text).2 = .ok design) :
    let steps := (new text).readingSteps
    steps.map (·.command) = commands text ∧
      (commands text).length = design.definitionCount + design.boards.length +
        steps.countP (·.failure?.isSome) ∧
      design.boards = steps.filterMap Step.board? ∧
      (∀ event ∈ design.problems, ∃ command ∈ commands text, event.line = command.line ∧
        ∃ rest, event.message.toList =
            "Line ".toList ++ (Nat.toDigits 10 command.line ++ rest) ∧
          Text.startsWith Char.isDigit rest = false) ∧
      (design.problems.map Event.line).Pairwise (· ≤ ·) ∧
      ∀ step ∈ steps,
        let own := design.problems.filter (Event.isAt step.command.line)
        (∀ failure, step.failure? = some failure →
          own.getLast? = some (.refused step.command.line failure)) ∧
        (step.failure? = none → (step.HasWrongWidth → own.length = 1) ∧
          (¬ step.HasWrongWidth → own = [])) := by
  intro steps
  obtain ⟨all, boards, problems, count⟩ := design_of_readDesign found
  have increasing : steps.Pairwise (·.command.line < ·.command.line) := by
    have ordered := Command.pairwise_line_commands text
    rw [← all, List.pairwise_map] at ordered
    exact ordered
  refine ⟨all, ?_, boards, ?_, ?_, ?_⟩
  · rw [count, boards, ← length_steps_eq, ← all, List.length_map]
  · intro event reported
    rw [problems] at reported
    obtain ⟨step, member, reported⟩ := List.mem_flatMap.mp reported
    have line := Step.line_of_mem_problems reported
    obtain ⟨rest, message, stops⟩ := event.exists_message_eq
    rw [line] at message
    exact ⟨step.command, all ▸ List.mem_map_of_mem member, line, rest, message, stops⟩
  · rw [problems]
    exact pairwise_line_problems increasing
  · intro step member own
    have same : own = step.problems := by
      rw [← filter_line_problems increasing member, ← problems]
    rw [same]
    refine ⟨fun failure refused => Step.getLast?_problems refused, fun accepted => ?_⟩
    rw [Step.problems_of_accepted accepted, ← Step.isSome_warning?_iff]
    cases step.warning? <;> simp

/-- A definition, a board whose width is wrong, and a command that is unknown. -/
theorem exists_account_of_commands :
    ∃ design, (readDesign "$w = 2\nboard $w x 1 x 1 \"a\" from 0,0 to 9,0\nshelf".toList).2 =
        .ok design ∧
      3 = design.definitionCount + design.boards.length +
        (new "$w = 2\nboard $w x 1 x 1 \"a\" from 0,0 to 9,0\nshelf".toList).readingSteps.countP
          (·.failure?.isSome) ∧
      (design.problems.map Event.line).Pairwise (· ≤ ·) := by
  have isRead : (readDesign
      "$w = 2\nboard $w x 1 x 1 \"a\" from 0,0 to 9,0\nshelf".toList).2.toOption.isSome =
        true := by
    decide +kernel
  cases found : (readDesign
      "$w = 2\nboard $w x 1 x 1 \"a\" from 0,0 to 9,0\nshelf".toList).2 with
  | error failure =>
      rw [found] at isRead
      cases isRead
  | ok design =>
      obtain ⟨-, counted, -, -, ordered, -⟩ := reading_accounts_for_commands found
      exact ⟨design, rfl, counted, ordered⟩

end Session
end Joinery
