import Joinery.Proofs.Session.Draw

/-!
# Steps of a reading

A reading of commands is a row of steps, one for each command that is reached. What a
reading adds to a session is what its steps add, one after the other.
-/

namespace Joinery

namespace Session

/-- A definition gives a variable its value, and nothing else changes. -/
theorem define_eq_ok
    {session after : Session}
    {line : Text}
    (defined : session.define line = .ok after) :
    ∃ name value, after = { session with
      numbers := session.numbers.insert name value
      definitionCount := session.definitionCount + 1 } := by
  unfold define at defined
  split at defined
  · cases defined
  · split at defined
    · cases defined
      exact ⟨_, _, rfl⟩
    · cases defined

/-- A definition is refused with a mild cause if expressions can be evaluated. -/
theorem define_eq_error
    {session : Session}
    {line : Text}
    {failure : Failure}
    (steady : session.scope.IsSteady)
    (refused : session.define line = .error failure) :
    failure.cause.isFatal = false := by
  unfold define at refused
  split at refused
  · cases refused
    rfl
  · split at refused
    · cases refused
    next cause evaluated =>
      cases refused
      exact recoverable_evaluate steady _ cause evaluated

end Session

/-- The failure that an attempt ends with, if it does. -/
def Failure.of? {α : Type} : Except Failure α → Option Failure
  | .ok _ => none
  | .error failure => some failure

/-- A command in the session that reads it. -/
structure Step where
  before : Session
  command : Command

namespace Step

variable (step : Step)

/-- The session behind the command, before a refusal is noted. -/
def after : Session := (step.before.obey step.command).1

/-- Why the command is refused, if it is. -/
def failure? : Option Failure := Failure.of? (step.before.obey step.command).2

/-- The creation that a board command asks for. -/
def creation? : Option Creation :=
  if step.command.kind = .board then
    some ⟨step.before, step.command.line, step.command.text⟩
  else none

/-- The board that the command adds. -/
def board? : Option (Board Binary64) := step.creation?.bind Creation.board?

/-- The warning that the command gives. -/
def warning? : Option Event :=
  step.creation?.bind fun creation => creation.before.warning? creation.line creation.text

/-- The refusal of the command as it is reported. -/
def refusal? : Option Event := step.failure?.map (.refused step.command.line)

/-- What is reported of the command: its warning, and then its refusal. -/
def problems : List Event := step.warning?.toList ++ step.refusal?.toList

/-- Whether the command defines a variable. -/
def defines : Bool := step.command.kind = .definition && step.failure?.isNone

/-- Whether the command is refused with a fatal cause. -/
def isFatal : Bool := step.failure?.any (·.cause.isFatal)

/-- The session behind the command, with the refusal if there is one. -/
def next : Session := { step.after with events := step.after.events ++ step.refusal?.toList }

/-- A board command that breaks off the reading. -/
def BreaksOff : Prop :=
  step.command.kind = .board ∧ step.before.BreaksOff step.command.text

/-! ## One step -/

variable {step}

theorem creation?_of_kind_ne (kind : step.command.kind ≠ .board) : step.creation? = none :=
  if_neg kind

theorem obey_of_definition (kind : step.command.kind = .definition) :
    (∃ name value, step.after = { step.before with
        numbers := step.before.numbers.insert name value
        definitionCount := step.before.definitionCount + 1 } ∧ step.failure? = none) ∨
      ∃ failure, step.after = step.before ∧ step.failure? = some failure ∧
        (step.before.scope.IsSteady → failure.cause.isFatal = false) := by
  unfold after failure? Session.obey
  rw [kind]
  cases defined : step.before.define step.command.text with
  | ok after =>
      obtain ⟨name, value, rfl⟩ := Session.define_eq_ok defined
      exact Or.inl ⟨name, value, rfl, rfl⟩
  | error failure =>
      exact Or.inr ⟨failure, rfl, rfl, fun steady => Session.define_eq_error steady defined⟩

theorem obey_of_board (kind : step.command.kind = .board) :
    step.before.obey step.command =
      step.before.draw step.command.line step.command.text := by
  unfold Session.obey
  rw [kind]

theorem obey_of_unknown (kind : step.command.kind = .unknown) :
    step.before.obey step.command = (step.before, .error ⟨none, .unknownCommand⟩) := by
  unfold Session.obey
  rw [kind]

/-- Reading a board command carries out its creation. -/
theorem after_of_creation?
    {creation : Creation}
    (drawn : step.creation? = some creation) :
    creation.after = step.after := by
  unfold creation? at drawn
  split at drawn
  next kind =>
    cases drawn
    rw [after, obey_of_board kind, Creation.after]
  next => cases drawn

/-- Other commands than those for boards change neither boards nor events. -/
theorem frame_of_kind_ne (kind : step.command.kind ≠ .board) :
    step.after.boards = step.before.boards ∧ step.after.registry = step.before.registry ∧
      step.after.events = step.before.events := by
  cases known : step.command.kind with
  | definition =>
      rcases obey_of_definition known with ⟨name, value, defined, -⟩ | ⟨failure, same, -⟩
      · rw [defined]
        exact ⟨rfl, rfl, rfl⟩
      · rw [same]
        exact ⟨rfl, rfl, rfl⟩
  | board => exact absurd known kind
  | unknown =>
      rw [after, obey_of_unknown known]
      exact ⟨rfl, rfl, rfl⟩

/-- A command extends the session by its board, if it adds one. -/
theorem extends_after (step : Step) : step.before.Extends step.after step.board?.toList := by
  by_cases kind : step.command.kind = .board
  · rw [board?, creation?, if_pos kind, after, obey_of_board kind]
    exact Creation.extends_after ⟨step.before, step.command.line, step.command.text⟩
  · obtain ⟨boards, registry, -⟩ := frame_of_kind_ne kind
    rw [board?, creation?_of_kind_ne kind]
    refine ⟨?_, ?_⟩
    · rw [boards]
      exact (List.append_nil _).symm
    · rw [registry]
      exact (List.append_nil _).symm

/-- A command reports its warning before it is refused. -/
theorem problems_after (step : Step) :
    step.after.problems = step.before.problems ++ step.warning?.toList := by
  by_cases kind : step.command.kind = .board
  · rw [warning?, creation?, if_pos kind, after, obey_of_board kind]
    exact Creation.problems_after ⟨step.before, step.command.line, step.command.text⟩
  · obtain ⟨-, -, events⟩ := frame_of_kind_ne kind
    rw [warning?, creation?_of_kind_ne kind, Session.problems, events]
    exact (List.append_nil _).symm

/-- Only a definition that is not refused is counted. -/
theorem definitionCount_after (step : Step) :
    step.after.definitionCount = step.before.definitionCount + step.defines.toNat := by
  unfold defines
  cases kind : step.command.kind with
  | definition =>
      rcases obey_of_definition kind with
        ⟨name, value, defined, accepted⟩ | ⟨failure, same, refused, -⟩
      · rw [defined, accepted]
        rfl
      · rw [same, refused]
        rfl
  | board =>
      rw [after, obey_of_board kind]
      exact Creation.definitionCount_after ⟨step.before, step.command.line, step.command.text⟩
  | unknown =>
      rw [after, obey_of_unknown kind]
      rfl

/-- A command has a fatal cause exactly if it breaks off. -/
theorem isFatal_iff (steady : step.before.scope.IsSteady) :
    step.isFatal = true ↔ step.BreaksOff := by
  unfold BreaksOff isFatal
  cases kind : step.command.kind with
  | definition =>
      rcases obey_of_definition kind with
        ⟨name, value, -, accepted⟩ | ⟨failure, -, refused, mild⟩
      · simp [accepted]
      · simp [refused, mild steady]
  | board =>
      rw [← Session.draw_isFatal_iff steady step.command.line step.command.text, failure?,
        obey_of_board kind]
      cases (step.before.draw step.command.line step.command.text).2 <;> simp [Failure.of?]
  | unknown =>
      rw [failure?, obey_of_unknown kind]
      simp [Failure.of?, Cause.isFatal]

theorem extends_next (step : Step) : step.before.Extends step.next step.board?.toList :=
  ⟨step.extends_after.boards, step.extends_after.entries⟩

/-- What a command reports is noted in its order. -/
theorem problems_next (step : Step) :
    step.next.problems = step.before.problems ++ step.problems := by
  have refusal : step.refusal?.toList.filter Event.isProblem = step.refusal?.toList := by
    unfold refusal?
    cases step.failure? <;> rfl
  have after := step.problems_after
  unfold Session.problems at after ⊢
  rw [next, List.filter_append, after, refusal, problems, List.append_assoc]

/-- A board that a command adds is well formed. -/
theorem wellFormed_board
    {board : Board Binary64}
    (placed : step.board? = some board) :
    board.WellFormed := by
  obtain ⟨creation, -, drawn⟩ := Option.bind_eq_some_iff.mp placed
  exact Creation.wellFormed_board drawn

end Step

namespace Session

/-- The steps of a reading. A fatal cause ends it. -/
def steps (session : Session) : List Command → List Step
  | [] => []
  | command :: rest =>
      let step : Step := ⟨session, command⟩
      step :: if step.isFatal then [] else step.next.steps rest

/-! ## Whole readings -/

section ObeyAll

variable (step : Step) (rest : List Command)

theorem obeyAll_cons_of_isFatal (fatal : step.isFatal = true) :
    ∃ failure, step.failure? = some failure ∧ failure.cause.isFatal = true ∧
      step.before.obeyAll (step.command :: rest) = (step.after, .error failure) := by
  obtain ⟨failure, refused, isFatal⟩ := (Option.any_eq_true _ _).mp fatal
  refine ⟨failure, refused, isFatal, ?_⟩
  unfold Step.failure? Failure.of? at refused
  rw [obeyAll, Step.after]
  split
  next outcome => simp [outcome] at refused
  next after other outcome =>
    simp only [outcome, Option.some.injEq] at refused
    rw [refused, if_pos isFatal, outcome]

theorem obeyAll_cons_of_not_isFatal (mild : step.isFatal = false) :
    step.before.obeyAll (step.command :: rest) = step.next.obeyAll rest := by
  unfold Step.isFatal Step.failure? Failure.of? at mild
  rw [obeyAll, Step.next, Step.refusal?, Step.failure?, Step.after]
  split
  next after _ outcome => simp [outcome, Failure.of?]
  next after failure outcome =>
    simp only [outcome, Option.any_some] at mild
    rw [if_neg (by simp [mild]), outcome]
    rfl

theorem steps_cons :
    step.before.steps (step.command :: rest) =
      step :: if step.isFatal then [] else step.next.steps rest := rfl

end ObeyAll

/-- A reading is at its end, or its first step ends it, or it goes on behind that. -/
@[elab_as_elim]
theorem reading_induction
    {motive : Session → List Command → Prop}
    (session : Session)
    (commands : List Command)
    (done : ∀ session, motive session [])
    (broken : ∀ (step : Step) rest, step.isFatal = true →
      motive step.before (step.command :: rest))
    (further : ∀ (step : Step) rest, step.isFatal = false → motive step.next rest →
      motive step.before (step.command :: rest)) :
    motive session commands := by
  induction commands generalizing session with
  | nil => exact done session
  | cons command rest inductionHypothesis =>
      cases fatal : Step.isFatal ⟨session, command⟩ with
      | true => exact broken ⟨session, command⟩ rest fatal
      | false => exact further ⟨session, command⟩ rest fatal (inductionHypothesis _)

/-- Every registered board is well formed. -/
def IsSound (session : Session) : Prop :=
  ∀ id board, session.board? id = some board → board.WellFormed

theorem IsSound.isSteady {session : Session} (sound : session.IsSound) :
    session.scope.IsSteady := by
  intro id board found
  exact Board.isSome_turn? (sound id board found).bounded

theorem isSound_new (text : Text) : (new text).IsSound := by
  intro id board found
  cases found

/-- Well-formed boards keep a session sound. -/
theorem IsSound.extend
    {before after : Session}
    {added : List (Board Binary64)}
    (sound : before.IsSound)
    (extends_ : before.Extends after added)
    (wellFormed : ∀ board ∈ added, board.WellFormed) :
    after.IsSound := by
  intro id board found
  have member := Dictionary.mem_entries_of_get? found
  rw [extends_.entries] at member
  rcases List.mem_append.mp member with earlier | later
  · exact sound id board (Dictionary.get?_of_mem_entries earlier)
  · obtain ⟨other, known, same⟩ := List.mem_map.mp later
    cases same
    exact wellFormed board known

theorem IsSound.next {step : Step} (sound : step.before.IsSound) : step.next.IsSound := by
  refine sound.extend step.extends_next ?_
  intro board added
  exact Step.wellFormed_board (Option.mem_toList.mp added)

theorem filterMap_board?_cons (step : Step) (rest : List Step) :
    (step :: rest).filterMap Step.board? = step.board?.toList ++ rest.filterMap Step.board? := by
  rw [List.filterMap_cons]
  cases step.board? <;> rfl

/-- A reading extends the session by the boards of its steps, even if it breaks off. -/
theorem extends_obeyAll (session : Session) (commands : List Command) :
    session.Extends (session.obeyAll commands).1
      ((session.steps commands).filterMap Step.board?) := by
  induction session, commands using reading_induction with
  | done session => exact .refl session
  | broken step rest fatal =>
      -- A fatal refusal is not noted, but the warning of the same command is.
      obtain ⟨failure, -, -, broken⟩ := obeyAll_cons_of_isFatal step rest fatal
      rw [steps_cons, if_pos fatal, filterMap_board?_cons, broken]
      exact step.extends_after.trans (.refl _)
  | further step rest mild inductionHypothesis =>
      rw [steps_cons, if_neg (by simp [mild]), filterMap_board?_cons,
        obeyAll_cons_of_not_isFatal step rest mild]
      exact step.extends_next.trans inductionHypothesis

theorem filterMap_board?_eq (steps : List Step) :
    steps.filterMap Step.board? = (steps.filterMap Step.creation?).filterMap Creation.board? :=
  (List.filterMap_filterMap ..).symm

/-- Behind each of its steps, a reading only extends the session. -/
theorem extends_after_of_mem_steps
    {session : Session}
    {commands : List Command}
    {step : Step}
    (member : step ∈ session.steps commands) :
    ∃ added, step.after.Extends (session.obeyAll commands).1 added := by
  induction session, commands using reading_induction with
  | done session => cases member
  | broken first rest fatal =>
      obtain ⟨failure, -, -, broken⟩ := obeyAll_cons_of_isFatal first rest fatal
      rw [steps_cons, if_pos fatal, List.mem_singleton] at member
      rw [member, broken]
      exact ⟨[], .refl _⟩
  | further first rest mild inductionHypothesis =>
      rw [steps_cons, if_neg (by simp [mild]), List.mem_cons] at member
      rw [obeyAll_cons_of_not_isFatal first rest mild]
      rcases member with rfl | member
      · have later := extends_obeyAll step.next rest
        exact ⟨_, later.boards, later.entries⟩
      · exact inductionHypothesis member

/-- A sound reading succeeds exactly if none of its steps breaks off. -/
theorem obeyAll_isOk_iff
    {session : Session}
    (sound : session.IsSound)
    (commands : List Command) :
    (session.obeyAll commands).2 = .ok () ↔
      ∀ step ∈ session.steps commands, ¬ step.BreaksOff := by
  induction session, commands using reading_induction with
  | done session => simp [obeyAll, steps]
  | broken step rest fatal =>
      obtain ⟨failure, -, -, broken⟩ := obeyAll_cons_of_isFatal step rest fatal
      rw [steps_cons, broken]
      simp [(Step.isFatal_iff sound.isSteady).mp fatal]
  | further step rest mild inductionHypothesis =>
      have goesOn : ¬ step.BreaksOff := by simp [← Step.isFatal_iff sound.isSteady, mild]
      rw [steps_cons, if_neg (by simp [mild]), List.forall_mem_cons,
        obeyAll_cons_of_not_isFatal step rest mild, inductionHypothesis sound.next]
      exact (and_iff_right goesOn).symm

/-- A whole reading has a step for each of the commands, and reports and counts what its
steps report and count. -/
theorem obeyAll_of_isOk
    {session : Session}
    {commands : List Command}
    (ok : (session.obeyAll commands).2 = .ok ()) :
    (session.steps commands).map (·.command) = commands ∧
      (session.obeyAll commands).1.problems =
        session.problems ++ (session.steps commands).flatMap Step.problems ∧
      (session.obeyAll commands).1.definitionCount =
        session.definitionCount + (session.steps commands).countP Step.defines := by
  induction session, commands using reading_induction with
  | done session => simp [obeyAll, steps]
  | broken step rest fatal =>
      obtain ⟨failure, -, -, broken⟩ := obeyAll_cons_of_isFatal step rest fatal
      rw [broken] at ok
      cases ok
  | further step rest mild inductionHypothesis =>
      rw [steps_cons, if_neg (by simp [mild]), obeyAll_cons_of_not_isFatal step rest mild]
      rw [obeyAll_cons_of_not_isFatal step rest mild] at ok
      obtain ⟨all, problems, count⟩ := inductionHypothesis ok
      refine ⟨?_, ?_, ?_⟩
      · rw [List.map_cons, all]
      · rw [problems, step.problems_next, List.flatMap_cons, List.append_assoc]
      · have counted : step.next.definitionCount = _ := step.definitionCount_after
        rw [count, counted, List.countP_cons, Nat.add_assoc, Nat.add_comm step.defines.toNat]
        cases step.defines <;> rfl

end Session
end Joinery
