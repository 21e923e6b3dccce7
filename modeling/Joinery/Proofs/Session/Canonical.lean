import Joinery.Proofs.Canonical.Heading
import Joinery.Proofs.Command.Seam
import Joinery.Proofs.Dimension
import Joinery.Proofs.Session.Draw

/-!
# Drawing canonical commands

A canonical command makes the board that it describes, in every session that does not have
its id. The parts of the command are read one after the other, each with its own text.
-/

namespace Joinery

namespace Canonical

open Options

variable {scope : Scope}

namespace BoardCommand

variable (command : BoardCommand scope)

/-! ## Assembly -/

/-- The draft of the board. -/
def draft : Draft :=
  ⟨command.width.value, command.height.value, command.depth.value, command.position.value,
    Text.joined ' ' (command.position.left ++ command.cutPhrases)⟩

/-- The dimensions and the position are read. -/
theorem ofHeading_eq :
    Draft.ofHeading scope ⟨command.id.map (·.text), Text.joined ' ' command.dimensions,
        command.name.text, Text.joined ' ' command.options⟩ =
      .ok command.draft := by
  have split : splitDimensions (Text.joined ' ' command.dimensions) =
      [command.width.text, command.height.text, command.depth.text] := by
    have text : Text.joined ' ' command.dimensions = command.width.text ++ ' ' :: 'x' :: ' ' ::
        (command.height.text ++ ' ' :: 'x' :: ' ' :: command.depth.text) := by
      simp [dimensions, Text.joined, List.intercalate]
    rw [text]
    exact splitDimensions_formulas command.width.isFormula command.height.isFormula
      command.depth.isFormula command.height.starts command.depth.starts
  unfold Draft.ofHeading
  simp only [command.isOption_dimensions.isPhrase.strip_eq]
  rw [split]
  simp only [command.width.evaluates, command.height.evaluates, command.depth.evaluates,
    command.withoutComment_options, command.readPosition_options]
  rfl

/-- The level of a segment is read, and its length counts as the width. -/
theorem place_draft :
    command.draft.place scope =
      .ok (command.position.placement command.width.value, Text.joined ' ' command.cutPhrases) := by
  unfold draft Draft.place
  cases command.position with
  | unset => rfl
  | point part => rfl
  | segment part =>
      refine bind_eq_ok.mpr ⟨_, command.readLevel_left part, ?_⟩
      simp only [Draft.lengthOf, part.measured]
      rfl

/-- The rest of the options is read, and the board is as described. -/
theorem board_draft (count : Nat) :
    command.draft.board scope (command.idAt count) command.name.text count =
      .ok (command.board count) := by
  refine bind_eq_ok.mpr ⟨_, command.place_draft, bind_eq_ok.mpr ⟨_, command.takeCuts_cutPhrases,
    bind_eq_ok.mpr ⟨_, command.takeView_viewPhrases, ?_⟩⟩⟩
  dsimp only
  rw [command.color?_colorPhrases]
  rfl

/-- The notice is given. -/
theorem notice?_draft : command.draft.notice? = .ok command.notice? := by
  obtain ⟨notice, known⟩ := Draft.notice?_isOk command.ofHeading_eq
  rw [known]
  unfold Draft.notice? draft at known
  unfold BoardCommand.notice?
  cases position : command.position with
  | unset =>
      rw [position] at known
      exact known.symm
  | point part =>
      rw [position] at known
      exact known.symm
  | segment part =>
      have distance : Draft.lengthOf part.start.content.x.value part.start.content.y.value
          part.stop.content.x.value part.stop.content.y.value = part.distance := rfl
      rw [position] at known
      simp only [Position.value, distance] at known
      rw [Position.notice?]
      split at known
      next wide =>
        rw [if_pos wide]
        split at known
        next rounded found =>
          rw [found, ← known]
          rfl
        next => cases known
      next near =>
        rw [if_neg near]
        exact known.symm

/-! ## Lines -/

/-- A phrase on a single line. -/
def IsLine (text : Text) : Prop := Text.IsPhrase text ∧ '\n' ∉ text

theorem isLine_word : IsLine (command.word.text ++ command.bracketedId) := by
  have isWord := command.word.all_isAsciiWordCharacter (by decide)
  have solid : ∀ character ∈ command.word.text ++ command.bracketedId,
      Text.isBlank character = false := by
    refine List.forall_mem_append.mpr ⟨fun character member =>
      Text.isBlank_of_isAsciiWordCharacter (List.all_eq_true.mp isWord character member), ?_⟩
    unfold bracketedId
    cases command.id with
    | none => exact fun _ member => absurd member List.not_mem_nil
    | some id =>
        refine List.forall_mem_cons.mpr ⟨rfl, List.forall_mem_append.mpr ⟨?_,
          Text.forall_mem_of_all_not (by decide)⟩⟩
        exact fun character member => Text.isBlank_of_isAsciiWordCharacter
          (List.all_eq_true.mp id.continues character member)
  have nonempty := command.word.text_ne_nil (by decide)
  refine ⟨Text.isPhrase_of_forall (List.append_ne_nil_of_left_ne_nil nonempty _) solid, ?_⟩
  intro member
  exact absurd (solid _ member) (by decide)

theorem isLine_quoted : IsLine command.name.quoted := by
  refine ⟨⟨List.cons_ne_nil _ _, rfl, ?_⟩, ?_⟩
  · simp [Name.quoted]
    decide
  · simp [Name.quoted, command.name.oneLine]

/-- A canonical command is a trimmed line. -/
theorem isLine_text : IsLine command.text := by
  have option {phrase : Text} (isOption : IsOption phrase) : IsLine phrase :=
    ⟨isOption.isPhrase, isOption.oneLine⟩
  refine Text.joined_induction (List.cons_ne_nil _ _) ?_ ?_
  · refine List.forall_mem_cons.mpr ⟨command.isLine_word, List.forall_mem_append.mpr ⟨?_,
      List.forall_mem_cons.mpr ⟨command.isLine_quoted, ?_⟩⟩⟩
    · exact fun phrase member => option (command.isOption_dimension phrase member)
    · exact fun phrase member => option (command.isOption_options phrase member)
  · intro first second firstLine secondLine
    refine ⟨firstLine.1.append [' '] secondLine.1, ?_⟩
    simp [firstLine.2, secondLine.2]

/-- As a design, a canonical command is one board command. -/
theorem commands_text : commands command.text = [⟨1, .board, command.text⟩] := by
  obtain ⟨rest, text⟩ : ∃ rest, command.text = command.word.text ++ rest := by
    rw [BoardCommand.text, Text.joined_cons _ (by simp), List.append_assoc]
    exact ⟨_, rfl⟩
  have starts := Command.startsWith_append command.word rest
  rw [← text] at starts
  have line := command.isLine_text
  have silent : Command.isSilent command.text = false := Command.isSilent_of_startsWith starts
  have kind : Command.kindOf command.text = .board := Command.kindOf_of_startsWith starts
  simp [commands, Command.lines_of_not_mem line.2, Command.gather, line.1.strip_eq, silent, kind]

end BoardCommand
end Canonical

namespace Session

variable {session : Session}

/-- A notice if there is one, and then the event for a board that is placed. -/
theorem add_notify_eq
    {id : Text}
    (fresh : session.board? id = none)
    (line : Int)
    (name : Text)
    (notice : Option WidthNotice)
    (board : Board Binary64) :
    ∃ registry : Dictionary (Board Binary64),
      registry.entries = session.registry.entries ++ [(id, board)] ∧
        (session.notify line name notice).add line id board =
          { session with
            boards := session.boards ++ [board]
            registry := registry
            events := session.events ++
              ((notice.map (.resized line name)).toList ++ [.placed line id board.name]) } := by
  refine ⟨session.registry.insert id board, Dictionary.entries_insert_of_get?_eq_none fresh, ?_⟩
  cases notice with
  | none => rfl
  | some notice => simp [notify, add, note]

/-- A canonical command is a single board command. In every session in which the id of its
board is new, the board that it describes comes behind all others, and so does its id in the
registry. There is an event for the board, and in front of it one for the notice if the width
differs from the length of the segment. Nothing else changes. -/
theorem draw_canonical
    (command : Canonical.BoardCommand session.scope)
    (fresh : session.board? (command.idAt session.boards.length) = none) :
    let id := command.idAt session.boards.length
    let board := command.board session.boards.length
    commands command.text = [⟨1, .board, command.text⟩] ∧
      ∀ line, ∃ registry : Dictionary (Board Binary64),
        registry.entries = session.registry.entries ++ [(id, board)] ∧
          session.draw line command.text =
            ({ session with
              boards := session.boards ++ [board]
              registry := registry
              events := session.events ++
                ((command.notice?.map (.resized line command.name.text)).toList ++
                  [.placed line id command.name.text]) }, .ok ()) := by
  refine ⟨command.commands_text, fun line => ?_⟩
  have id : session.idFor ⟨command.id.map (·.text), Text.joined ' ' command.dimensions,
      command.name.text, Text.joined ' ' command.options⟩ =
      command.idAt session.boards.length := rfl
  obtain ⟨registry, entries, added⟩ := add_notify_eq fresh line command.name.text command.notice?
    (command.board session.boards.length)
  refine ⟨registry, entries, ?_⟩
  unfold draw
  rw [command.ofLine?_text]
  simp only [id, fresh, Option.isSome_none, Bool.false_eq_true, if_false, place,
    command.ofHeading_eq, command.notice?_draft, command.board_draft]
  exact Prod.ext added rfl

/-- A variable that looks like two dimensions and a name that looks like a section are read
as they are, and the length of the segment counts. -/
theorem exists_draw_canonical :
    ∃ (session : Session) (command : Canonical.BoardCommand session.scope) (after : Session),
      command.text = "Board $x2 x 3 x 4 \"view f\" FROM 0,0 to 3,4 color #cad".toList ∧
      session.board? (command.idAt session.boards.length) = none ∧
      session.draw 1 command.text = (after, .ok ()) ∧
      after.boards = session.boards ++ [command.board session.boards.length] ∧
      after.events = session.events ++
        [.resized 1 "view f".toList ⟨2, 5⟩,
          .placed 1 (command.idAt session.boards.length) "view f".toList] := by
  let session : Session := { Session.new [] with numbers := Dictionary.empty.insert ['x', '2'] 2 }
  let zero : Canonical.Quantity session.scope :=
    ⟨['0'], .lone (.single (.operand (.literal ⟨['0'], none, rfl, rfl, Or.inl (by decide)⟩))),
      by exact .last ['0'], by decide, 0, by decide +kernel⟩
  let three : Canonical.Quantity session.scope :=
    ⟨['3'], .lone (.single (.operand (.literal ⟨['3'], none, rfl, rfl, Or.inl (by decide)⟩))),
      by exact .last ['3'], by decide, 3, by decide +kernel⟩
  let four : Canonical.Quantity session.scope :=
    ⟨['4'], .lone (.single (.operand (.literal ⟨['4'], none, rfl, rfl, Or.inl (by decide)⟩))),
      by exact .last ['4'], by decide, 4, by decide +kernel⟩
  let width : Canonical.Quantity session.scope :=
    ⟨['$', 'x', '2'], .lone (.single (.operand (.named ⟨['x', '2'], rfl, rfl⟩))), .last _,
      by decide, 2, by decide +kernel⟩
  let segment : Canonical.Segment session.scope :=
    ⟨⟨⟨"FROM".toList, rfl⟩, ⟨zero, zero⟩⟩, ⟨⟨"to".toList, rfl⟩, ⟨three, four⟩⟩, none, 5,
      by decide +kernel⟩
  let command : Canonical.BoardCommand session.scope :=
    ⟨⟨"Board".toList, rfl⟩, none, width, ⟨three, rfl⟩, ⟨four, rfl⟩,
      ⟨"view f".toList, by decide, by decide, by decide⟩, .segment segment, none, none,
      some ⟨⟨"color".toList, rfl⟩, ⟨"#cad".toList, by decide⟩⟩⟩
  have fresh : session.board? (command.idAt session.boards.length) = none := rfl
  have notice : command.notice? = some ⟨2, 5⟩ := by decide +kernel
  obtain ⟨registry, -, drawn⟩ := (draw_canonical command fresh).2 1
  refine ⟨session, command, _, rfl, fresh, drawn, rfl, ?_⟩
  rw [notice]
  rfl

end Session
end Joinery
