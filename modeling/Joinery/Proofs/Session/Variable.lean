import Joinery.Proofs.Session.Run

/-!
# Values of variables

A run gives values to variables, one after the other. A variable has the value that it was
given last, so it keeps a value only until it is defined again: `number?_of_assigns`. There
are as many variables as definitions exactly if no variable is defined twice.
-/

namespace Joinery

namespace Session

open Dictionary

/-- The variable that a definition gives a value, and the value, if it is accepted. -/
def assignment? (session : Session) (line : Text) : Option (Text × Binary64) :=
  match Definition.ofLine? line with
  | none => none
  | some definition =>
      match Joinery.evaluate session.scope definition.expression with
      | .ok value => some (definition.name, value)
      | .error _ => none

/-- A later session has the definitions of an earlier one and some more. -/
structure Assigns (before after : Session) (assigned : List (Text × Binary64)) : Prop where
  numbers : after.numbers = before.numbers.insertAll assigned
  definitionCount : after.definitionCount = before.definitionCount + assigned.length

namespace Assigns

theorem refl (session : Session) : session.Assigns session [] := ⟨rfl, rfl⟩

theorem trans
    {first second third : Session}
    {assigned more : List (Text × Binary64)}
    (earlier : first.Assigns second assigned)
    (later : second.Assigns third more) :
    first.Assigns third (assigned ++ more) :=
  ⟨by rw [later.numbers, earlier.numbers, insertAll_append],
    by rw [later.definitionCount, earlier.definitionCount, List.length_append, Nat.add_assoc]⟩

/-- A variable has the value that it was given last, if it was given one. -/
theorem number?_eq
    {before after : Session}
    {assigned : List (Text × Binary64)}
    (assigns : before.Assigns after assigned)
    (name : Text) :
    after.number? name = (lastValue? name assigned).or (before.number? name) := by
  rw [number?, assigns.numbers, get?_insertAll]
  rfl

end Assigns

/-- A definition is accepted exactly if it gives a value to a variable. -/
theorem define_eq_ok_iff {session after : Session} {line : Text} :
    session.define line = .ok after ↔
      ∃ name value, session.assignment? line = some (name, value) ∧
        after = { session with
          numbers := session.numbers.insert name value
          definitionCount := session.definitionCount + 1 } := by
  unfold define assignment?
  cases Definition.ofLine? line with
  | none => simp
  | some definition =>
      dsimp only
      cases Joinery.evaluate session.scope definition.expression with
      | error cause => simp
      | ok value => simp [eq_comm]

theorem assignment?_of_define_eq_error
    {session : Session}
    {line : Text}
    {failure : Failure}
    (refused : session.define line = .error failure) :
    session.assignment? line = none := by
  by_contra given
  obtain ⟨⟨name, value⟩, known⟩ := Option.ne_none_iff_exists'.mp given
  rw [define_eq_ok_iff.mpr ⟨name, value, known, rfl⟩] at refused
  cases refused

/-- A board command defines nothing. -/
theorem assigns_draw (session : Session) (line : Int) (text : Text) :
    session.Assigns (session.draw line text).1 [] := by
  rcases draw_cases session line text with ⟨failure, drawn⟩ | ⟨_, _, _, -, -, drawn⟩
  · rw [drawn]
    exact ⟨rfl, rfl⟩
  · rw [drawn]
    exact ⟨rfl, rfl⟩

end Session

namespace Step

/-- The variable that a command gives a value, and the value. -/
def assignment? (step : Step) : Option (Text × Binary64) :=
  if step.command.kind = .definition then step.before.assignment? step.command.text else none

/-- A command gives a value to its variable, if it is an accepted definition. -/
theorem assigns_after (step : Step) :
    step.before.Assigns step.after step.assignment?.toList := by
  unfold assignment? after
  cases kind : step.command.kind with
  | definition =>
      rw [if_pos rfl, Session.obey, kind]
      cases defined : step.before.define step.command.text with
      | ok session =>
          obtain ⟨name, value, given, rfl⟩ := Session.define_eq_ok_iff.mp defined
          rw [given]
          exact ⟨rfl, rfl⟩
      | error failure =>
          rw [Session.assignment?_of_define_eq_error defined]
          exact .refl _
  | board =>
      rw [if_neg (by simp), obey_of_board kind]
      exact step.before.assigns_draw _ _
  | unknown =>
      rw [if_neg (by simp), obey_of_unknown kind]
      exact .refl _

theorem assigns_next (step : Step) : step.before.Assigns step.next step.assignment?.toList :=
  ⟨step.assigns_after.numbers, step.assigns_after.definitionCount⟩

end Step

namespace Session

open Dictionary

theorem filterMap_assignment?_cons (step : Step) (rest : List Step) :
    (step :: rest).filterMap Step.assignment? =
      step.assignment?.toList ++ rest.filterMap Step.assignment? := by
  rw [List.filterMap_cons]
  cases step.assignment? <;> rfl

/-- A reading gives the values of its steps, even if it breaks off. -/
theorem assigns_obeyAll (session : Session) (commands : List Command) :
    session.Assigns (session.obeyAll commands).1
      ((session.steps commands).filterMap Step.assignment?) := by
  induction session, commands using reading_induction with
  | done session => exact .refl session
  | broken step rest fatal =>
      obtain ⟨failure, -, -, broken⟩ := obeyAll_cons_of_isFatal step rest fatal
      rw [steps_cons, if_pos fatal, filterMap_assignment?_cons, broken]
      exact step.assigns_after.trans (.refl _)
  | further step rest mild inductionHypothesis =>
      rw [steps_cons, if_neg (by simp [mild]), filterMap_assignment?_cons,
        obeyAll_cons_of_not_isFatal step rest mild]
      exact step.assigns_next.trans inductionHypothesis

/-- The values that an operation gives to variables, in their order. -/
def assignmentsOf (session : Session) : Operation → List (Text × Binary64)
  | .define line => (session.assignment? line).toList
  | .read => session.readingSteps.filterMap Step.assignment?
  | _ => []

/-- The values that a row of operations gives to variables, in their order. -/
def assignments (session : Session) : List Operation → List (Text × Binary64)
  | [] => []
  | operation :: rest =>
      session.assignmentsOf operation ++ (session.perform operation).1.assignments rest

theorem assigns_read (session : Session) :
    session.Assigns session.read.1 (session.readingSteps.filterMap Step.assignment?) := by
  unfold readingSteps
  cases spent : session.isSpent with
  | true =>
      rw [read_of_isSpent spent]
      exact .refl session
  | false =>
      have given := assigns_obeyAll { session with isSpent := true } (commands session.text)
      rw [read_of_not_isSpent spent]
      exact ⟨given.numbers, given.definitionCount⟩

/-- An operation gives values to variables, and leaves the others. -/
theorem assigns_perform (session : Session) (operation : Operation) :
    session.Assigns (session.perform operation).1 (session.assignmentsOf operation) := by
  cases operation with
  | define line =>
      cases defined : session.define line with
      | ok after =>
          obtain ⟨name, value, given, rfl⟩ := define_eq_ok_iff.mp defined
          simp only [perform, defined, assignmentsOf, given]
          exact ⟨rfl, rfl⟩
      | error failure =>
          simp only [perform, defined, assignmentsOf, assignment?_of_define_eq_error defined]
          exact .refl session
  | draw line text => exact session.assigns_draw line text
  | evaluate text => exact .refl session
  | read => exact session.assigns_read

/-- A run gives the values of its operations. -/
theorem assigns_run (session : Session) (operations : List Operation) :
    session.Assigns (session.run operations) (session.assignments operations) := by
  induction operations generalizing session with
  | nil => exact .refl session
  | cons operation rest inductionHypothesis =>
      exact (session.assigns_perform operation).trans (inductionHypothesis _)

/-- After every run, a variable has the value of its last definition, and later operations
keep this value exactly as long as they do not give it another one. Every accepted
definition counts, so the count is the number of variables exactly if no variable was
defined twice. -/
theorem variables_follow_definitions (text : Text) (operations : List Operation) :
    let session := (new text).run operations
    let given := (new text).assignments operations
    (∀ name, session.number? name = lastValue? name given) ∧
      (∀ later name value, session.number? name = some value →
        (session.run later).number? name =
            some ((lastValue? name (session.assignments later)).getD value) ∧
          (name ∉ (session.assignments later).map (·.1) →
            (session.run later).number? name = some value)) ∧
      session.definitionCount = given.length ∧
      session.numbers.names.length ≤ session.definitionCount ∧
      (session.definitionCount = session.numbers.names.length ↔ (given.map (·.1)).Nodup) := by
  intro session given
  have assigns : (new text).Assigns session given := assigns_run (new text) operations
  have count : session.definitionCount = given.length :=
    assigns.definitionCount.trans (Nat.zero_add _)
  have names : session.numbers = Dictionary.empty.insertAll given := assigns.numbers
  have noName : (Dictionary.empty : Dictionary Binary64).names = [] := rfl
  refine ⟨fun name => ?_, fun later name value known => ?_, count, ?_, ?_⟩
  · rw [assigns.number?_eq]
    exact Option.or_none
  · have onward := (assigns_run session later).number?_eq name
    rw [known] at onward
    refine ⟨?_, fun absent => ?_⟩
    · rw [onward]
      cases lastValue? name (session.assignments later) <;> rfl
    · rw [onward, lastValue?_eq_none absent]
      rfl
  · have bound := Dictionary.empty.length_names_insertAll_le given
    rw [noName, List.length_nil, Nat.zero_add] at bound
    rw [names, count]
    exact bound
  · have exact_ := Dictionary.empty.length_names_insertAll_eq_iff given
    rw [noName, List.length_nil, Nat.zero_add, List.nil_append] at exact_
    rw [names, count, eq_comm]
    exact exact_

/-- A second definition of a variable changes its value, and counts as well. -/
theorem exists_redefined_variable :
    (¬ ∀ (text : Text) (operations later : List Operation) (name : Text) (value : Binary64),
        ((new text).run operations).number? name = some value →
          (((new text).run operations).run later).number? name = some value) ∧
      ¬ ∀ (text : Text) (operations : List Operation),
        ((new text).run operations).definitionCount =
          ((new text).run operations).numbers.names.length := by
  refine ⟨fun always => ?_, fun always => ?_⟩
  · have same := always [] [.define "$A = 1".toList] [.define "$A = 2".toList] ['A'] 1
      (by decide +kernel)
    exact absurd same (by decide +kernel)
  · exact absurd (always [] [.define "$A = 1".toList, .define "$A = 2".toList])
      (by decide +kernel)

end Session
end Joinery
