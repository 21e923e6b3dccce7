import Joinery.Proofs.Binary64.Sign
import Joinery.Proofs.Session.Run

/-!
# Fatal causes

A definition never fails with a fatal cause, and a board command does so in two
situations only. Either it can be read up to the level of its segment, and the segment is
too long to be rounded. Or it can be read up to its cuts, all lengths there have values,
and a word looks like the name of a side but is none.
-/

namespace Joinery

open Binary64

namespace Options

/-- The texts of the four coordinates of a segment, and the options behind them. -/
def SegmentParts (options x1 y1 x2 y2 rest : Text) : Prop :=
  ∃ ends position last,
    Keyword.behind? options "from".toList = some ends ∧
    Keyword.find? ends "to".toList = some position ∧
    splitCoordinates (Text.strip (ends.take position)) = [x1, y1] ∧
    Keyword.takeSection (Text.strip (ends.drop (position + 2))) behindSegment = (last, rest) ∧
    splitCoordinates last = [x2, y2]

/-- Options with a segment whose four coordinates have values. -/
def HasSegment
    (scope : Scope)
    (options : Text)
    (x1 y1 x2 y2 : Binary64)
    (rest : Text) : Prop :=
  ∃ first second third fourth, SegmentParts options first second third fourth rest ∧
    evaluate scope first = .ok x1 ∧ evaluate scope second = .ok y1 ∧
    evaluate scope third = .ok x2 ∧ evaluate scope fourth = .ok y2

/-- Options that start with no level, or with one that has a value. -/
def HasLevel (scope : Scope) (options : Text) : Prop :=
  Keyword.find? options "z".toList = some 0 →
    ∃ value, evaluate scope
      (Keyword.takeSection (Text.strip (options.drop 1)) behindPosition).1 = .ok value

variable {scope : Scope} {options rest : Text} {x1 y1 x2 y2 : Binary64}

/-- A segment is read where there is one. -/
theorem readPosition_eq_segment_iff :
    readPosition scope options = .ok (.segment x1 y1 x2 y2, rest) ↔
      HasSegment scope options x1 y1 x2 y2 rest := by
  constructor
  · intro found
    unfold readPosition at found
    split at found
    next _ ends behind =>
      unfold readSegment at found
      split at found
      · cases found
      next position isEnd =>
        split at found
        next first second starts =>
          split at found
          next last behindEnd taken =>
            split at found
            next third fourth stops =>
              obtain ⟨_, evaluated1, found⟩ := bind_eq_ok.mp found
              obtain ⟨_, evaluated2, found⟩ := bind_eq_ok.mp found
              obtain ⟨_, evaluated3, found⟩ := bind_eq_ok.mp found
              obtain ⟨_, evaluated4, found⟩ := bind_eq_ok.mp found
              cases found
              exact ⟨first, second, third, fourth,
                ⟨ends, position, last, behind, isEnd, starts, taken, stops⟩,
                evaluated1, evaluated2, evaluated3, evaluated4⟩
            next => cases found
        next => cases found
    next =>
      obtain ⟨position, point, same⟩ := bind_eq_ok.mp found
      cases same
      exact (readPoint_ne_segment point).elim
    next => cases found
  · rintro ⟨first, second, third, fourth,
      ⟨ends, position, last, behind, isEnd, starts, taken, stops⟩,
      evaluated1, evaluated2, evaluated3, evaluated4⟩
    simp only [readPosition, behind, readSegment, isEnd, starts, taken, stops, evaluated1,
      evaluated2, evaluated3, evaluated4]
    rfl

theorem readLevel_isOk_iff :
    (∃ level, readLevel scope options = .ok level) ↔ HasLevel scope options := by
  unfold readLevel HasLevel
  split
  next isLevel =>
    constructor
    · rintro ⟨level, found⟩ -
      obtain ⟨value, evaluated, -⟩ := bind_eq_ok.mp found
      exact ⟨value, evaluated⟩
    · intro hasValue
      obtain ⟨value, evaluated⟩ := hasValue isLevel
      exact ⟨_, bind_eq_ok.mpr ⟨value, evaluated, rfl⟩⟩
  next noLevel => exact ⟨fun _ isLevel => absurd isLevel noLevel, fun _ => ⟨_, rfl⟩⟩

end Options

/-- A heading with three dimensions, all of which have values. -/
def Heading.HasSize (scope : Scope) (heading : Heading) : Prop :=
  let parts := splitDimensions (Text.strip heading.dimensions)
  parts.length = 3 ∧ ∀ part ∈ parts, ∃ value, evaluate scope part = .ok value

namespace Draft

variable {scope : Scope} {heading : Heading}

/-- A heading has a draft if its dimensions and its position can be read. -/
theorem exists_ofHeading_iff {position : Options.Position} {rest : Text} :
    (∃ draft, ofHeading scope heading = .ok draft ∧ draft.position = position ∧
        draft.options = rest) ↔
      heading.HasSize scope ∧
        Options.readPosition scope (Options.withoutComment heading.options) =
          .ok (position, rest) := by
  constructor
  · rintro ⟨draft, drafted, rfl, rfl⟩
    refine ⟨?_, readPosition_of_ofHeading drafted⟩
    simp only [ofHeading] at drafted
    split at drafted
    next width height depth parts =>
      obtain ⟨_, first, drafted⟩ := bind_eq_ok.mp drafted
      obtain ⟨_, second, drafted⟩ := bind_eq_ok.mp drafted
      obtain ⟨_, third, -⟩ := bind_eq_ok.mp drafted
      simp only [Heading.HasSize, parts, List.forall_mem_cons]
      exact ⟨rfl, ⟨_, first⟩, ⟨_, second⟩, ⟨_, third⟩, by simp⟩
    next => cases drafted
  · rintro ⟨⟨three, values⟩, found⟩
    obtain ⟨width, height, depth, parts⟩ := List.length_eq_three.mp three
    rw [parts] at values
    obtain ⟨⟨w, first⟩, ⟨h, second⟩, ⟨d, third⟩, -⟩ := by
      simpa only [List.forall_mem_cons] using values
    refine ⟨⟨w, h, d, position, rest⟩, ?_, rfl, rfl⟩
    simp only [ofHeading, parts, first, second, third, found]
    rfl

/-- The thousandfold of the length of a segment that was read is too large, if it is not
finite. -/
theorem thousandfold_lengthOf_eq_infinite
    {options rest : Text}
    {x1 y1 x2 y2 : Binary64}
    (found : Options.readPosition scope options = .ok (.segment x1 y1 x2 y2, rest))
    (endless : (lengthOf x1 y1 x2 y2 * 1000 + half).isFinite = false) :
    lengthOf x1 y1 x2 y2 * 1000 + half = .infinite false := by
  obtain ⟨⟨x1Within, y1Within⟩, x2Within, y2Within⟩ := Options.within_readPosition found
  have room : 2 * (5 * scale + 5 * scale) + 1 < 2 ^ wholePlaces := by
    have large := two_pow_sixty_four_le_scale
    rw [two_pow_wholePlaces]
    omega
  exact thousandfold_eq_infinite (x2Within.sub x1Within room).isFinite
    (y2Within.sub y1Within room).isFinite endless

end Draft

namespace Session

/-- A board command with an id that is new and dimensions that have values. -/
def IsNewBoard (session : Session) (command : Text) (heading : Heading) : Prop :=
  Heading.ofLine? command = some heading ∧ session.board? (session.idFor heading) = none ∧
    heading.HasSize session.scope

/-- A board command that can be read up to the level of its segment, whose length is too
large to be rounded. -/
def HasEndlessSegment (session : Session) (command : Text) : Prop :=
  ∃ heading x1 y1 x2 y2 rest, session.IsNewBoard command heading ∧
    Options.HasSegment session.scope (Options.withoutComment heading.options) x1 y1 x2 y2
      rest ∧
    Options.HasLevel session.scope rest ∧
    Draft.lengthOf x1 y1 x2 y2 * 1000 + half = .infinite false

/-- A board command that can be read up to its cuts, where all lengths have values and a
word only looks like the name of a side. -/
def HasStrangeSide (session : Session) (command : Text) : Prop :=
  ∃ heading draft placement rest cuts, session.IsNewBoard command heading ∧
    Draft.ofHeading session.scope heading = .ok draft ∧
    draft.place session.scope = .ok (placement, rest) ∧
    Options.cutSection? rest = some cuts ∧ Options.HasStrangeSide session.scope cuts

section Draw

variable {session : Session} {command : Text}

/-- The draft of an endless segment. -/
theorem hasEndlessSegment_iff :
    session.HasEndlessSegment command ↔
      ∃ heading draft, session.draft? command = some (heading, draft) ∧
        draft.IsEndless session.scope := by
  constructor
  · rintro ⟨heading, x1, y1, x2, y2, rest, ⟨headed, fresh, sized⟩, segment, level, endless⟩
    have found := Options.readPosition_eq_segment_iff.mpr segment
    obtain ⟨draft, drafted, position, rfl⟩ := Draft.exists_ofHeading_iff.mpr ⟨sized, found⟩
    refine ⟨heading, draft, draft?_eq_some_iff.mpr ⟨headed, fresh, drafted⟩, x1, y1, x2, y2,
      position, Options.readLevel_isOk_iff.mpr level, ?_⟩
    rw [endless]
    rfl
  · rintro ⟨heading, draft, drafted, x1, y1, x2, y2, position, level, endless⟩
    obtain ⟨headed, fresh, drafted⟩ := draft?_eq_some_iff.mp drafted
    obtain ⟨sized, found⟩ := Draft.exists_ofHeading_iff.mp ⟨draft, drafted, position, rfl⟩
    exact ⟨heading, x1, y1, x2, y2, draft.options, ⟨headed, fresh, sized⟩,
      Options.readPosition_eq_segment_iff.mp found, Options.readLevel_isOk_iff.mp level,
      Draft.thousandfold_lengthOf_eq_infinite found endless⟩

/-- The draft of a board with a strange side. -/
theorem hasStrangeSide_iff :
    session.HasStrangeSide command ↔
      ∃ heading draft, session.draft? command = some (heading, draft) ∧
        draft.HasStrangeSide session.scope := by
  constructor
  · rintro ⟨heading, draft, placement, rest, cuts, ⟨headed, fresh, -⟩, drafted, strange⟩
    exact ⟨heading, draft, draft?_eq_some_iff.mpr ⟨headed, fresh, drafted⟩, placement, rest,
      cuts, strange⟩
  · rintro ⟨heading, draft, drafted, placement, rest, cuts, strange⟩
    obtain ⟨headed, fresh, drafted⟩ := draft?_eq_some_iff.mp drafted
    obtain ⟨sized, -⟩ := Draft.exists_ofHeading_iff.mp ⟨draft, drafted, rfl, rfl⟩
    exact ⟨heading, draft, placement, rest, cuts, ⟨headed, fresh, sized⟩, drafted, strange⟩

/-- The fatal causes of a board command. -/
theorem draw_cause_iff
    (cause : Cause)
    (steady : session.scope.IsSteady)
    (fatal : cause.isFatal = true)
    (line : Int) :
    (∃ subject, (session.draw line command).2 = .error ⟨subject, cause⟩) ↔
      (cause = .tooLong ∧ session.HasEndlessSegment command) ∨
        (cause = .unknownSide ∧ session.HasStrangeSide command) := by
  rw [hasEndlessSegment_iff, hasStrangeSide_iff]
  cases drafted : session.draft? command with
  | none =>
      obtain ⟨failure, drawn, mild⟩ := draw_of_draft?_eq_none drafted line
      rw [drawn]
      constructor
      · rintro ⟨subject, same⟩
        cases same
        simp [mild steady] at fatal
      · simp
  | some found =>
      obtain ⟨heading, draft⟩ := found
      have causes := Draft.board_isFatal_iff steady fatal (session.idFor heading) heading.name
        session.boards.length draft
      rw [draw_of_draft?_eq_some drafted line]
      simp only [Option.some.injEq, Prod.mk.injEq, and_assoc, exists_eq_left', exists_and_left]
      rw [← causes]
      cases draft.board session.scope (session.idFor heading) heading.name
          session.boards.length with
      | error other => simp
      | ok board => simp

end Draw

/-- A refused board command keeps the variables and the boards. -/
theorem frame_of_draw_eq_error
    {session : Session}
    {line : Int}
    {command : Text}
    {failure : Failure}
    (refused : (session.draw line command).2 = .error failure) :
    let after := (session.draw line command).1
    after.numbers = session.numbers ∧ after.registry = session.registry ∧
      after.boards = session.boards ∧ after.definitionCount = session.definitionCount := by
  rcases draw_cases session line command with ⟨other, drawn⟩ | ⟨_, _, board, -, -, drawn⟩
  · rw [drawn]
    exact ⟨rfl, rfl, rfl, rfl⟩
  · rw [drawn] at refused
    cases refused

/-- After every run, a definition fails with mild causes only. A board command fails with
a fatal cause exactly if it has an endless segment or a strange side; then neither
variables nor boards change. -/
theorem fatal_causes_of_commands (text : Text) (operations : List Operation) :
    let session := (new text).run operations
    (∀ line failure, session.define line = .error failure → failure.cause.isFatal = false) ∧
      ∀ line command,
        ((∃ subject, (session.draw line command).2 = .error ⟨subject, .tooLong⟩) ↔
            session.HasEndlessSegment command) ∧
          ((∃ subject, (session.draw line command).2 = .error ⟨subject, .unknownSide⟩) ↔
            session.HasStrangeSide command) ∧
          ∀ failure, (session.draw line command).2 = .error failure →
            failure.cause.isFatal = true →
              (failure.cause = .tooLong ∨ failure.cause = .unknownSide) ∧
                let after := (session.draw line command).1
                after.numbers = session.numbers ∧ after.registry = session.registry ∧
                  after.boards = session.boards ∧
                  after.definitionCount = session.definitionCount := by
  intro session
  have steady : session.scope.IsSteady := (isSound_run text operations).isSteady
  refine ⟨fun line failure refused => define_eq_error steady refused, ?_⟩
  intro line command
  refine ⟨?_, ?_, ?_⟩
  · simpa using draw_cause_iff .tooLong steady rfl line
  · simpa using draw_cause_iff .unknownSide steady rfl line
  · rintro ⟨subject, cause⟩ refused fatal
    have known := (draw_cause_iff cause steady fatal line).mp ⟨subject, refused⟩
    exact ⟨known.imp And.left And.left, frame_of_draw_eq_error refused⟩

end Session
end Joinery
