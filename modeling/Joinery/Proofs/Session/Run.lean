import Joinery.Proofs.Session.Reading

/-!
# Runs of a session

A session can be used command by command, and it can read its own text, once. A run is
any row of such operations. Its boards are those of its creations, in their order.
-/

namespace Joinery

/-- A use of a session. -/
inductive Operation
  | define (line : Text)
  | draw (line : Int) (text : Text)
  | evaluate (text : Text)
  | read

namespace Session

/-- The session behind an operation, and the failure of the operation if there is one. -/
def perform (session : Session) : Operation → Session × Option Failure
  | .define line =>
      match session.define line with
      | .ok after => (after, none)
      | .error failure => (session, some failure)
  | .draw line text => ((session.draw line text).1, Failure.of? (session.draw line text).2)
  | .evaluate text => (session, Failure.of? (session.evaluate text))
  | .read => (session.read.1, Failure.of? session.read.2)

/-- The session behind a row of operations. -/
def run (session : Session) : List Operation → Session
  | [] => session
  | operation :: rest => (session.perform operation).1.run rest

/-- The steps of the session when it reads its text. -/
def readingSteps (session : Session) : List Step :=
  if session.isSpent then []
  else { session with isSpent := true }.steps (commands session.text)

/-- The board commands of an operation. -/
def creationsOf (session : Session) : Operation → List Creation
  | .draw line text => [⟨session, line, text⟩]
  | .read => session.readingSteps.filterMap Step.creation?
  | _ => []

/-- The board commands of a row of operations. -/
def creations (session : Session) : List Operation → List Creation
  | [] => []
  | operation :: rest =>
      session.creationsOf operation ++ (session.perform operation).1.creations rest

/-! ## Growth -/

theorem read_of_isSpent
    {session : Session}
    (spent : session.isSpent = true) :
    session.read = (session, .error ⟨none, .spent⟩) :=
  if_pos spent

theorem read_of_not_isSpent
    {session : Session}
    (fresh : session.isSpent = false) :
    session.read =
      let outcome := { session with isSpent := true }.obeyAll (commands session.text)
      (outcome.1, outcome.2.map fun _ => outcome.1.design) := by
  rw [read, if_neg (by simp [fresh])]

/-- Reading the text extends the session by the boards of the steps. -/
theorem extends_read (session : Session) :
    session.Extends session.read.1 (session.readingSteps.filterMap Step.board?) := by
  unfold readingSteps
  cases spent : session.isSpent with
  | true =>
      rw [read_of_isSpent spent]
      exact .refl session
  | false =>
      have grown := extends_obeyAll { session with isSpent := true } (commands session.text)
      rw [read_of_not_isSpent spent]
      exact ⟨grown.boards, grown.entries⟩

/-- An operation extends the session by the boards of its creations. -/
theorem extends_perform (session : Session) (operation : Operation) :
    session.Extends (session.perform operation).1
      ((session.creationsOf operation).filterMap Creation.board?) := by
  cases operation with
  | define line =>
      cases defined : session.define line with
      | error failure =>
          simp only [perform, defined]
          exact .refl session
      | ok after =>
          obtain ⟨name, value, rfl⟩ := define_eq_ok defined
          simp only [perform, defined]
          exact ⟨(List.append_nil _).symm, (List.append_nil _).symm⟩
  | draw line text =>
      have grown : session.Extends (session.draw line text).1 _ :=
        Creation.extends_after ⟨session, line, text⟩
      unfold perform creationsOf
      cases placed : Creation.board? ⟨session, line, text⟩ with
      | none => simpa [placed] using grown
      | some board => simpa [placed] using grown
  | evaluate text => exact .refl session
  | read =>
      rw [creationsOf, ← filterMap_board?_eq]
      exact extends_read session

/-- A run extends the session by the boards of its creations. -/
theorem extends_run (session : Session) (operations : List Operation) :
    session.Extends (session.run operations)
      ((session.creations operations).filterMap Creation.board?) := by
  induction operations generalizing session with
  | nil => exact .refl session
  | cons operation rest inductionHypothesis =>
      rw [creations, List.filterMap_append]
      exact (session.extends_perform operation).trans (inductionHypothesis _)

/-- Behind each of its creations, an operation only extends the session. -/
theorem extends_after_of_mem_creationsOf
    {session : Session}
    {operation : Operation}
    {creation : Creation}
    (member : creation ∈ session.creationsOf operation) :
    ∃ added, creation.after.Extends (session.perform operation).1 added := by
  cases operation with
  | define line => cases member
  | draw line text =>
      rw [List.mem_singleton.mp member]
      exact ⟨[], .refl _⟩
  | evaluate text => cases member
  | read =>
      obtain ⟨step, reached, drawn⟩ := List.mem_filterMap.mp member
      unfold readingSteps at reached
      cases spent : session.isSpent with
      | true => simp [spent] at reached
      | false =>
          rw [if_neg (by simp [spent])] at reached
          obtain ⟨added, later⟩ := extends_after_of_mem_steps reached
          rw [Step.after_of_creation? drawn, perform, read_of_not_isSpent spent]
          exact ⟨added, later⟩

/-- Behind each of its creations, a run only extends the session. -/
theorem extends_after_of_mem_creations
    {session : Session}
    {operations : List Operation}
    {creation : Creation}
    (member : creation ∈ session.creations operations) :
    ∃ added, creation.after.Extends (session.run operations) added := by
  induction operations generalizing session with
  | nil => cases member
  | cons operation rest inductionHypothesis =>
      rcases List.mem_append.mp member with first | later
      · obtain ⟨added, reached⟩ := extends_after_of_mem_creationsOf first
        exact ⟨_, reached.trans (extends_run _ rest)⟩
      · exact inductionHypothesis later

/-- After every run, the registered boards are well formed. -/
theorem isSound_run (text : Text) (operations : List Operation) :
    ((new text).run operations).IsSound := by
  refine (isSound_new text).extend (extends_run (new text) operations) ?_
  intro board member
  obtain ⟨creation, -, placed⟩ := List.mem_filterMap.mp member
  exact Creation.wellFormed_board placed

end Session
end Joinery
