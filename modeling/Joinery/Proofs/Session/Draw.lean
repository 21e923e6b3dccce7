import Joinery.Session
import Joinery.Proofs.Dictionary
import Joinery.Proofs.Assembly.WellFormed

/-!
# Board commands in a session

A board command is refused before a draft of it is known, or it has a draft. A draft may
give a warning, which is noted, and then it becomes a board or is refused. Nothing else
of the session changes.
-/

namespace Joinery

namespace Session

/-- The heading and the draft of a board command with an id that is new. -/
def draft? (session : Session) (text : Text) : Option (Heading × Draft) :=
  match Heading.ofLine? text with
  | none => none
  | some heading =>
      if (session.board? (session.idFor heading)).isSome then none
      else match Draft.ofHeading session.scope heading with
        | .error _ => none
        | .ok draft => some (heading, draft)

/-- The warning that a board command gives, if the width differs from the length. -/
def warning? (session : Session) (line : Int) (text : Text) : Option Event :=
  match session.draft? text with
  | none => none
  | some (heading, draft) =>
      match draft.notice? with
      | .ok (some notice) => some (.resized line heading.name notice)
      | _ => none

/-- The session with the warning of a board command. -/
def warn (session : Session) (line : Int) (text : Text) : Session :=
  { session with events := session.events ++ (session.warning? line text).toList }

section Draw

variable {session : Session} {text : Text} {heading : Heading} {draft : Draft}

theorem draft?_eq_some_iff :
    session.draft? text = some (heading, draft) ↔
      Heading.ofLine? text = some heading ∧ session.board? (session.idFor heading) = none ∧
        Draft.ofHeading session.scope heading = .ok draft := by
  unfold draft?
  constructor
  · intro found
    split at found
    · cases found
    next other headed =>
      split at found
      · cases found
      next fresh =>
        split at found
        · cases found
        next drafted =>
          cases found
          exact ⟨headed, Option.not_isSome_iff_eq_none.mp fresh, drafted⟩
  · rintro ⟨headed, fresh, drafted⟩
    simp [headed, fresh, drafted]

/-- A command without a draft leaves the session, and is refused with a mild cause if
expressions can be evaluated. -/
theorem draw_of_draft?_eq_none
    (undrafted : session.draft? text = none)
    (line : Int) :
    ∃ failure, session.draw line text = (session, .error failure) ∧
      (session.scope.IsSteady → failure.cause.isFatal = false) := by
  unfold draft? at undrafted
  unfold draw
  cases headed : Heading.ofLine? text with
  | none => exact ⟨_, rfl, fun _ => rfl⟩
  | some heading =>
      rw [headed] at undrafted
      dsimp only at undrafted ⊢
      split
      next => exact ⟨_, rfl, fun _ => rfl⟩
      next fresh =>
        rw [if_neg fresh] at undrafted
        split at undrafted
        next cause drafted =>
          refine ⟨⟨some heading.name, cause⟩, ?_, fun steady => ?_⟩
          · simp only [place, drafted]
            rfl
          · exact Draft.failsWith_ofHeading steady.covers heading cause drafted
        next => cases undrafted

/-- A command with a draft gives its warning, and then it adds a board or is refused. -/
theorem draw_of_draft?_eq_some
    (drafted : session.draft? text = some (heading, draft))
    (line : Int) :
    session.draw line text =
      match draft.board session.scope (session.idFor heading) heading.name
          session.boards.length with
      | .error cause => (session.warn line text, .error ⟨some heading.name, cause⟩)
      | .ok board =>
          ((session.warn line text).add line (session.idFor heading) board, .ok ()) := by
  obtain ⟨headed, fresh, known⟩ := draft?_eq_some_iff.mp drafted
  obtain ⟨notice, noticed⟩ := Draft.notice?_isOk known
  have warned : session.notify line heading.name notice = session.warn line text := by
    unfold warn warning?
    simp only [drafted, noticed]
    cases notice with
    | none => simp [notify]
    | some notice => rfl
  unfold draw
  rw [headed]
  simp only [fresh, Option.isSome_none, Bool.false_eq_true, if_false, place, known, noticed]
  rw [warned]
  cases draft.board session.scope (session.idFor heading) heading.name session.boards.length with
  | error cause => rfl
  | ok board => rfl

end Draw

/-- A board command is refused, and then only its warning is left of it, or it adds a
board. -/
theorem draw_cases (session : Session) (line : Int) (text : Text) :
    (∃ failure, session.draw line text = (session.warn line text, .error failure)) ∨
      ∃ heading draft board, session.draft? text = some (heading, draft) ∧
        draft.board session.scope (session.idFor heading) heading.name session.boards.length =
          .ok board ∧
        session.draw line text =
          ((session.warn line text).add line (session.idFor heading) board, .ok ()) := by
  cases drafted : session.draft? text with
  | none =>
      obtain ⟨failure, drawn, -⟩ := draw_of_draft?_eq_none drafted line
      have unwarned : session.warn line text = session := by simp [warn, warning?, drafted]
      rw [unwarned]
      exact Or.inl ⟨failure, drawn⟩
  | some found =>
      obtain ⟨heading, draft⟩ := found
      have drawn := draw_of_draft?_eq_some drafted line
      split at drawn
      next cause built => exact Or.inl ⟨_, drawn⟩
      next board built => exact Or.inr ⟨heading, draft, board, rfl, built, drawn⟩

theorem isProblem_of_warning?
    {session : Session}
    {line : Int}
    {text : Text}
    {event : Event}
    (warned : session.warning? line text = some event) :
    event.isProblem = true := by
  unfold warning? at warned
  split at warned
  · cases warned
  · split at warned
    · cases warned
      rfl
    · cases warned

/-- The warning of a board command is reported. -/
theorem problems_warn (session : Session) (line : Int) (text : Text) :
    (session.warn line text).problems =
      session.problems ++ (session.warning? line text).toList := by
  unfold warn problems
  rw [List.filter_append]
  cases warned : session.warning? line text with
  | none => rfl
  | some event => simp [isProblem_of_warning? warned]

/-- A board that is added is not a problem. -/
theorem problems_add (session : Session) (line : Int) (id : Text) (board : Board Binary64) :
    (session.add line id board).problems = session.problems := by
  simp [add, note, problems, Event.isProblem]

/-! ## Breaking off -/

/-- A board command that ends the reading: its segment is endless, or its cuts have a
strange side. -/
def BreaksOff (session : Session) (text : Text) : Prop :=
  ∃ heading draft, session.draft? text = some (heading, draft) ∧
    (draft.IsEndless session.scope ∨ draft.HasStrangeSide session.scope)

/-- A board command has a fatal cause exactly if it breaks off. -/
theorem draw_isFatal_iff
    {session : Session}
    (steady : session.scope.IsSteady)
    (line : Int)
    (text : Text) :
    (∃ failure, (session.draw line text).2 = .error failure ∧ failure.cause.isFatal = true) ↔
      session.BreaksOff text := by
  unfold BreaksOff
  cases drafted : session.draft? text with
  | none =>
      obtain ⟨failure, drawn, mild⟩ := draw_of_draft?_eq_none drafted line
      simp [drawn, mild steady]
  | some found =>
      obtain ⟨heading, draft⟩ := found
      have fatal (cause : Cause) (fatal : cause.isFatal = true) :=
        Draft.board_isFatal_iff steady fatal (session.idFor heading) heading.name
          session.boards.length draft
      rw [draw_of_draft?_eq_some drafted line]
      constructor
      · rintro ⟨failure, drawn, isFatal⟩
        split at drawn
        next cause built =>
          cases drawn
          refine ⟨heading, draft, rfl, ?_⟩
          exact ((fatal _ isFatal).mp built).imp And.right And.right
        next => cases drawn
      · rintro ⟨_, _, same, breaks⟩
        cases same
        rcases breaks with endless | strange
        · rw [(fatal .tooLong rfl).mpr (Or.inl ⟨rfl, endless⟩)]
          exact ⟨_, rfl, rfl⟩
        · rw [(fatal .unknownSide rfl).mpr (Or.inr ⟨rfl, strange⟩)]
          exact ⟨_, rfl, rfl⟩

/-! ## Growth -/

/-- A later session has the boards of an earlier one and some more, and has registered
those with their ids. -/
structure Extends (before after : Session) (added : List (Board Binary64)) : Prop where
  boards : after.boards = before.boards ++ added
  entries : after.registry.entries =
    before.registry.entries ++ added.map fun board => (board.id, board)

namespace Extends

theorem refl (session : Session) : session.Extends session [] :=
  ⟨(List.append_nil _).symm, (List.append_nil _).symm⟩

theorem trans
    {first second third : Session}
    {added more : List (Board Binary64)}
    (earlier : first.Extends second added)
    (later : second.Extends third more) :
    first.Extends third (added ++ more) :=
  ⟨by rw [later.boards, earlier.boards, List.append_assoc],
    by rw [later.entries, earlier.entries, List.map_append, List.append_assoc]⟩

end Extends
end Session

/-- A board command in the session that reads it. -/
structure Creation where
  before : Session
  line : Int
  text : Text

namespace Creation

variable (creation : Creation)

/-- The session behind the command. -/
def after : Session := (creation.before.draw creation.line creation.text).1

/-- The board that the command adds behind the boards that are there already. -/
def board? : Option (Board Binary64) := creation.after.boards[creation.before.boards.length]?

variable {creation}

/-- A board that is added was assembled from a draft. -/
theorem board?_eq_some_iff {board : Board Binary64} :
    creation.board? = some board ↔
      ∃ heading draft, creation.before.draft? creation.text = some (heading, draft) ∧
        draft.board creation.before.scope (creation.before.idFor heading) heading.name
          creation.before.boards.length = .ok board := by
  unfold board? after
  rcases Session.draw_cases creation.before creation.line creation.text with
    ⟨failure, drawn⟩ | ⟨heading, draft, added, drafted, built, drawn⟩
  · rw [drawn]
    constructor
    · intro found
      simp [Session.warn] at found
    · rintro ⟨heading, draft, drafted, built⟩
      rw [Session.draw_of_draft?_eq_some drafted, built] at drawn
      cases congrArg Prod.snd drawn
  · rw [drawn]
    simp [Session.warn, Session.add, Session.note, drafted, built]

/-- A refused board command leaves nothing but its warning. -/
theorem after_of_board?_eq_none
    (refused : creation.board? = none) :
    creation.after = creation.before.warn creation.line creation.text := by
  unfold after
  rcases Session.draw_cases creation.before creation.line creation.text with
    ⟨failure, drawn⟩ | ⟨heading, draft, added, drafted, built, drawn⟩
  · rw [drawn]
  · have found := board?_eq_some_iff.mpr ⟨heading, draft, drafted, built⟩
    rw [refused] at found
    cases found

/-- A board command extends the session by its board, if it adds one. -/
theorem extends_after (creation : Creation) :
    creation.before.Extends creation.after creation.board?.toList := by
  cases placed : creation.board? with
  | none =>
      rw [after_of_board?_eq_none placed]
      exact ⟨(List.append_nil _).symm, (List.append_nil _).symm⟩
  | some board =>
      obtain ⟨heading, draft, drafted, built⟩ := board?_eq_some_iff.mp placed
      obtain ⟨-, fresh, -⟩ := Session.draft?_eq_some_iff.mp drafted
      obtain ⟨_, _, _, _, _, _, -, -, -, rfl⟩ := Draft.board_eq_ok built
      unfold after
      rw [Session.draw_of_draft?_eq_some drafted, built]
      exact ⟨rfl, Dictionary.entries_insert_of_get?_eq_none fresh⟩

theorem problems_after (creation : Creation) :
    creation.after.problems = creation.before.problems ++
      (creation.before.warning? creation.line creation.text).toList := by
  unfold after
  rcases Session.draw_cases creation.before creation.line creation.text with
    ⟨failure, drawn⟩ | ⟨heading, draft, added, drafted, built, drawn⟩
  · rw [drawn, Session.problems_warn]
  · rw [drawn, Session.problems_add, Session.problems_warn]

theorem definitionCount_after (creation : Creation) :
    creation.after.definitionCount = creation.before.definitionCount := by
  unfold after
  rcases Session.draw_cases creation.before creation.line creation.text with
    ⟨failure, drawn⟩ | ⟨heading, draft, added, drafted, built, drawn⟩
  · rw [drawn]
    rfl
  · rw [drawn]
    rfl

/-- A board that is added is well formed. -/
theorem wellFormed_board
    {board : Board Binary64}
    (placed : creation.board? = some board) :
    board.WellFormed := by
  obtain ⟨heading, draft, drafted, built⟩ := board?_eq_some_iff.mp placed
  obtain ⟨headed, -, known⟩ := Session.draft?_eq_some_iff.mp drafted
  exact Draft.wellFormed_board headed known built

end Creation
end Joinery
