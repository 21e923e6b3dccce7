import Joinery.Assembly
import Joinery.Dictionary

/-!
# Sessions

A session reads a design command by command. Definitions and boards are visible to
all commands behind them, and what happened is kept as a list of events. A command
that is wrong leaves no definition and no board, and reading goes on behind it.
-/

namespace Joinery

/-- Why a command fails, and what it would have defined, when that is known. -/
structure Failure where
  subject : Option Text
  cause : Cause
  deriving DecidableEq

/-- Something that happened in a session. -/
inductive Event
  /-- A command was refused. -/
  | refused (line : Int) (failure : Failure)
  /-- The width of a board differed from the length of its segment. -/
  | resized (line : Int) (name : Text) (notice : WidthNotice)
  /-- A board was placed. -/
  | placed (line : Int) (id name : Text)
  deriving DecidableEq

namespace WidthNotice

/-- Wording of a notice. -/
def message (notice : WidthNotice) : String :=
  "width " ++ String.ofList notice.width.plainText ++ " differs from from/to distance " ++
    String.ofList (Text.ofInt notice.length) ++ ", using the distance"

end WidthNotice

namespace Event

/-- A line number, and a subject in parentheses if there is one. -/
def location (line : Int) (subject : Option Text) : String :=
  "Line " ++ String.ofList (Text.ofInt line) ++
    match subject with
    | some subject => " (" ++ String.ofList subject ++ ")"
    | none => ""

/-- Wording of an event. -/
def message : Event → String
  | .refused line failure =>
      location line failure.subject ++ ": " ++ failure.cause.message
  | .resized line name notice => location line (some name) ++ ": " ++ notice.message
  | .placed line id name =>
      location line none ++ ": board " ++ Cause.bracketed id ++ " " ++ String.ofList name

/-- Whether an event is reported to the author of the design. -/
def isProblem : Event → Bool
  | .placed _ _ _ => false
  | _ => true

end Event

/-- What a session has read. -/
structure Session where
  text : Text
  /-- The text of the session has been read. -/
  isSpent : Bool
  /-- Values of the variables. -/
  numbers : Dictionary Binary64
  /-- Boards by their ids. -/
  registry : Dictionary (Board Binary64)
  /-- Boards in the order of their creation. -/
  boards : List (Board Binary64)
  /-- Events in their order. -/
  events : List Event
  /-- Number of definitions that were read. -/
  definitionCount : Nat
  deriving DecidableEq

/-- The result of reading a whole text. -/
structure Design where
  boards : List (Board Binary64)
  events : List Event
  definitionCount : Nat
  deriving DecidableEq

namespace Design

/-- Events that are reported to the author. -/
def problems (design : Design) : List Event := design.events.filter Event.isProblem

end Design

namespace Session

/-- The session of a text that is not read yet. -/
def new (text : Text) : Session := ⟨text, false, .empty, .empty, [], [], 0⟩

/-- The value of a variable. -/
def number? (session : Session) (name : Text) : Option Binary64 :=
  session.numbers.get? name

/-- The board with an id. -/
def board? (session : Session) (id : Text) : Option (Board Binary64) :=
  session.registry.get? id

/-- What expressions of the session can refer to. -/
def scope (session : Session) : Scope := ⟨session.number?, session.board?⟩

/-- The id of a board that has none of its own, by the number of boards before it. -/
def autoId (count : Nat) : Text := 'b' :: Text.ofNat count

/-- Events that are reported to the author. -/
def problems (session : Session) : List Event := session.events.filter Event.isProblem

/-- The session with one more event. -/
def note (session : Session) (event : Event) : Session :=
  { session with events := session.events ++ [event] }

/-- The value of an expression. -/
def evaluate (session : Session) (text : Text) : Except Failure Binary64 :=
  (Joinery.evaluate session.scope text).mapError fun cause => ⟨none, cause⟩

/-- Reads a definition. -/
def define (session : Session) (line : Text) : Except Failure Session :=
  match Definition.ofLine? line with
  | none => .error ⟨none, .notADefinition⟩
  | some definition =>
      match Joinery.evaluate session.scope definition.expression with
      | .ok value =>
          .ok { session with
            numbers := session.numbers.insert definition.name value
            definitionCount := session.definitionCount + 1 }
      | .error cause => .error ⟨some ('$' :: definition.name), cause⟩

/-- The session with a notice, if there is one. -/
def notify (session : Session) (line : Int) (name : Text) :
    Option WidthNotice → Session
  | none => session
  | some notice => session.note (.resized line name notice)

/-- The session with one more board, which is registered with its id. -/
def add (session : Session) (line : Int) (id : Text) (board : Board Binary64) : Session :=
  { session with
    boards := session.boards ++ [board]
    registry := session.registry.insert id board }.note (.placed line id board.name)

/-- Reads a board from its heading. A notice stays even if the rest of the board is
refused. -/
def place (session : Session) (line : Int) (id : Text) (heading : Heading) :
    Session × Except Cause Unit :=
  match Draft.ofHeading session.scope heading with
  | .error cause => (session, .error cause)
  | .ok draft =>
      match draft.notice? with
      | .error cause => (session, .error cause)
      | .ok notice =>
          let noted := session.notify line heading.name notice
          match draft.board session.scope id heading.name session.boards.length with
          | .error cause => (noted, .error cause)
          | .ok board => (noted.add line id board, .ok ())

/-- The id of the board with a heading, which is generated if there is none. -/
def idFor (session : Session) (heading : Heading) : Text :=
  heading.id.getD (autoId session.boards.length)

/-- Reads a board command. -/
def draw (session : Session) (line : Int) (text : Text) :
    Session × Except Failure Unit :=
  match Heading.ofLine? text with
  | none => (session, .error ⟨none, .notABoard⟩)
  | some heading =>
      let id := session.idFor heading
      if (session.board? id).isSome then (session, .error ⟨none, .duplicateId id⟩)
      else
        let (after, outcome) := session.place line id heading
        (after, outcome.mapError fun cause => ⟨some heading.name, cause⟩)

/-- Reads a command. -/
def obey (session : Session) (command : Command) : Session × Except Failure Unit :=
  match command.kind with
  | .definition =>
      match session.define command.text with
      | .ok after => (after, .ok ())
      | .error failure => (session, .error failure)
  | .board => session.draw command.line command.text
  | .unknown => (session, .error ⟨none, .unknownCommand⟩)

/-- Reads commands. A refusal is noted, unless it ends the reading. -/
def obeyAll (session : Session) : List Command → Session × Except Failure Unit
  | [] => (session, .ok ())
  | command :: rest =>
      match session.obey command with
      | (after, .ok _) => after.obeyAll rest
      | (after, .error failure) =>
          if failure.cause.isFatal then (after, .error failure)
          else (after.note (.refused command.line failure)).obeyAll rest

/-- What the session has read so far. -/
def design (session : Session) : Design :=
  ⟨session.boards, session.events, session.definitionCount⟩

/-- Reads the text of the session, once. -/
def read (session : Session) : Session × Except Failure Design :=
  if session.isSpent then (session, .error ⟨none, .spent⟩)
  else
    let (after, outcome) := { session with isSpent := true }.obeyAll (commands session.text)
    (after, outcome.map fun _ => after.design)

end Session

/-- Reads a design. -/
def readDesign (text : Text) : Session × Except Failure Design := (Session.new text).read

end Joinery
