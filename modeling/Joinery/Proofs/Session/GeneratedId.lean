import Joinery.Proofs.Assembly.Cause
import Joinery.Proofs.Session.Registry

/-!
# Generated ids

The id of a board that has none of its own is generated from the number of boards. No two
generated ids are the same, but a command may give its board an id that is generated later.
Then every board without an id is refused, until another board is added.
-/

namespace Joinery

theorem Text.ofNat_injective {first second : Nat} (same : ofNat first = ofNat second) :
    first = second := by
  have read := congrArg (Nat.ofDigitChars 10 · 0) same
  simpa only [ofNat, Nat.ofDigitChars_ten_toDigits] using read

namespace Session

theorem autoId_injective {first second : Nat} (same : autoId first = autoId second) :
    first = second :=
  Text.ofNat_injective (List.cons.inj same).2

theorem idFor_eq_autoId
    {heading : Heading}
    (unnamed : heading.id = none)
    (session : Session) :
    session.idFor heading = autoId session.boards.length := by
  rw [idFor, unnamed]
  rfl

/-! ## Refused ids -/

/-- A board whose id is registered is refused before it is read. -/
theorem draw_of_registered
    {session : Session}
    {text : Text}
    {heading : Heading}
    (headed : Heading.ofLine? text = some heading)
    (registered : (session.board? (session.idFor heading)).isSome = true)
    (line : Int) :
    session.draw line text =
      (session, .error ⟨none, .duplicateId (session.idFor heading)⟩) := by
  rw [draw, headed]
  exact if_pos registered

/-- A board whose id is not registered is refused only because of its parts. -/
theorem isOfBoard_of_draw_eq_error
    {session : Session}
    {line : Int}
    {text : Text}
    {heading : Heading}
    {failure : Failure}
    (headed : Heading.ofLine? text = some heading)
    (fresh : session.board? (session.idFor heading) = none)
    (refused : (session.draw line text).2 = .error failure) :
    failure.cause.isOfBoard = true := by
  simp only [draw, headed, fresh, Option.isSome_none, Bool.false_eq_true, if_false, place]
    at refused
  obtain ⟨cause, failed, rfl⟩ := mapError_eq_error.mp refused
  split at failed
  next other drafted =>
    cases failed
    exact Draft.failsWith_ofHeading (covers_isOfBoard _) heading cause drafted
  next draft _ =>
    split at failed
    next other noticed =>
      cases failed
      exact Draft.failsAsBoard_notice? draft cause noticed
    next =>
      split at failed
      next other built =>
        cases failed
        exact Draft.failsAsBoard_board _ _ _ _ draft cause built
      next => cases failed

/-- A board is refused as a duplicate exactly if its id is registered. -/
theorem draw_eq_duplicateId_iff
    {session : Session}
    {line : Int}
    {text subjectId : Text}
    {subject : Option Text}
    {heading : Heading}
    (headed : Heading.ofLine? text = some heading) :
    (session.draw line text).2 = .error ⟨subject, .duplicateId subjectId⟩ ↔
      subject = none ∧ subjectId = session.idFor heading ∧
        (session.board? (session.idFor heading)).isSome = true := by
  cases known : session.board? (session.idFor heading) with
  | none =>
      refine ⟨fun refused => ?_, fun ⟨_, _, registered⟩ => by cases registered⟩
      have isOfBoard := isOfBoard_of_draw_eq_error headed known refused
      cases isOfBoard
  | some board =>
      rw [draw_of_registered headed (by rw [known]; rfl)]
      simp [eq_comm]

/-! ## Registered ids -/

/-- The session of a run that goes on. -/
theorem run_append (session : Session) (first second : List Operation) :
    session.run (first ++ second) = (session.run first).run second := by
  induction first generalizing session with
  | nil => rfl
  | cons operation rest inductionHypothesis => exact inductionHypothesis _

/-- An id is registered if a board has it. -/
theorem IsRegistered.isSome_board?_iff
    {session : Session}
    (registered : session.IsRegistered)
    {id : Text} :
    (session.board? id).isSome = true ↔ ∃ board ∈ session.boards, board.id = id := by
  constructor
  · intro found
    obtain ⟨board, found⟩ := Option.isSome_iff_exists.mp found
    have member := Dictionary.mem_entries_of_get? found
    rw [registered] at member
    obtain ⟨other, isBoard, same⟩ := List.mem_map.mp member
    cases same
    exact ⟨board, isBoard, rfl⟩
  · rintro ⟨board, member, rfl⟩
    rw [registered.board?_eq member]
    rfl

/-- The next generated id is registered exactly if a command gave it to its board. -/
theorem isSome_board?_autoId_iff (text : Text) (operations : List Operation) :
    let session := (new text).run operations
    let id := autoId session.boards.length
    (session.board? id).isSome = true ↔
      ∃ creation ∈ (new text).creations operations, creation.board?.isSome = true ∧
        ∃ heading, Heading.ofLine? creation.text = some heading ∧ heading.id = some id := by
  intro session id
  rw [(isRegistered_run text operations).isSome_board?_iff, boards_run]
  constructor
  · rintro ⟨board, member, same⟩
    obtain ⟨creation, isCreation, placed⟩ := List.mem_filterMap.mp member
    obtain ⟨heading, headed, named, -⟩ := creation.id_and_color placed
    refine ⟨creation, isCreation, by rw [placed]; rfl, heading, headed, ?_⟩
    cases own : heading.id with
    | some other =>
        rw [own] at named
        rw [← same, named]
        rfl
    | none =>
        -- A generated id would be that of an earlier count of boards.
        rw [own] at named
        have sameCount : creation.before.boards.length = session.boards.length :=
          autoId_injective (named.symm.trans same)
        obtain ⟨added, grown⟩ := extends_after_of_mem_creations isCreation
        have longer : session.boards.length = (creation.after.boards ++ added).length :=
          congrArg List.length grown.boards
        have inside := (List.getElem?_eq_some_iff.mp placed).1
        rw [List.length_append] at longer
        omega
  · rintro ⟨creation, isCreation, placed, heading, headed, own⟩
    obtain ⟨board, placed⟩ := Option.isSome_iff_exists.mp placed
    obtain ⟨other, known, named, -⟩ := creation.id_and_color placed
    rw [headed] at known
    cases known
    rw [own] at named
    exact ⟨board, List.mem_filterMap.mpr ⟨creation, isCreation, placed⟩, named⟩

/-- After every run, a board without an id is refused because of its id exactly if an
earlier command gave its board the id that is generated from the number of boards. In that
case all boards without an id are refused, as long as no other board is added. -/
theorem generated_id_is_refused_iff
    {command : Text}
    {heading : Heading}
    (headed : Heading.ofLine? command = some heading)
    (unnamed : heading.id = none)
    (text : Text)
    (operations : List Operation)
    (line : Int) :
    let session := (new text).run operations
    let id : Text := 'b' :: Nat.toDigits 10 session.boards.length
    (∀ subject other, (session.draw line command).2 = .error ⟨subject, .duplicateId other⟩ ↔
        subject = none ∧ other = id ∧
          ∃ creation ∈ (new text).creations operations, creation.board?.isSome = true ∧
            ∃ earlier, Heading.ofLine? creation.text = some earlier ∧ earlier.id = some id) ∧
      ((session.board? id).isSome = true →
        ∀ later, (session.run later).boards = session.boards →
          (session.run later).draw line command =
            (session.run later, .error ⟨none, .duplicateId id⟩)) := by
  intro session id
  have generated : session.idFor heading = id := idFor_eq_autoId unnamed session
  refine ⟨fun subject other => ?_, fun taken later same => ?_⟩
  · rw [draw_eq_duplicateId_iff headed, generated]
    exact and_congr_right fun _ => and_congr_right fun _ =>
      isSome_board?_autoId_iff text operations
  · have laterGenerated : (session.run later).idFor heading = id := by
      rw [idFor_eq_autoId unnamed, same]
      rfl
    have laterRegistered : (session.run later).IsRegistered := by
      rw [← run_append]
      exact isRegistered_run text _
    have laterTaken : ((session.run later).board? id).isSome = true := by
      rw [laterRegistered.isSome_board?_iff, same]
      exact (isRegistered_run text operations).isSome_board?_iff.mp taken
    rw [draw_of_registered headed (by rw [laterGenerated]; exact laterTaken), laterGenerated]

/-- The second board has no id, and the first one was given the id `b1`. -/
theorem exists_refused_generated_id :
    ((((new []).run [.draw 1 "board[b1] 1 x 1 x 1 \"A\"".toList]).draw 2
        "board 1 x 1 x 1 \"B\"".toList).2 = .error ⟨none, .duplicateId "b1".toList⟩) ∧
      ∃ creation ∈ (new []).creations [.draw 1 "board[b1] 1 x 1 x 1 \"A\"".toList],
        creation.board?.isSome = true := by
  have headed : Heading.ofLine? "board 1 x 1 x 1 \"B\"".toList =
      some ⟨none, "1 x 1 x 1".toList, ['B'], []⟩ := by
    decide +kernel
  have refused : (((new []).run [.draw 1 "board[b1] 1 x 1 x 1 \"A\"".toList]).draw 2
      "board 1 x 1 x 1 \"B\"".toList).2 = .error ⟨none, .duplicateId "b1".toList⟩ := by
    decide +kernel
  obtain ⟨-, -, creation, isCreation, placed, -⟩ :=
    ((generated_id_is_refused_iff headed rfl [] _ 2).1 none "b1".toList).mp refused
  exact ⟨refused, creation, isCreation, placed⟩

/-- A board without an id can be refused because of its id. -/
theorem exists_board_without_id_refused :
    ¬ ∀ (text : Text) (operations : List Operation) (line : Int) (command : Text)
        (heading : Heading), Heading.ofLine? command = some heading → heading.id = none →
      ∀ subject id, (((new text).run operations).draw line command).2 ≠
        .error ⟨subject, .duplicateId id⟩ := by
  intro never
  refine never [] [.draw 1 "board[b1] 1 x 1 x 1 \"A\"".toList] 2 "board 1 x 1 x 1 \"B\"".toList
    ⟨none, "1 x 1 x 1".toList, ['B'], []⟩ ?_ rfl none "b1".toList ?_
  · decide +kernel
  · decide +kernel

end Session
end Joinery
