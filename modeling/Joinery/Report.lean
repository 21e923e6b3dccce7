import Joinery.Session
import Joinery.Issue
import Joinery.Face
import Joinery.Projection
import Joinery.Json

/-!
# Reports on designs

A design is reported as a JSON document, as a count of its parts and faults, and as
one line for every board with its projection or its faces. Lines show numbers with
at most six digits.
-/

namespace Joinery

namespace Segment

/-- A segment in a document. -/
def json (segment : Segment Binary64) : Json :=
  .object [("x1", .number segment.x1), ("y1", .number segment.y1),
    ("x2", .number segment.x2), ("y2", .number segment.y2)]

end Segment

namespace Cuts

/-- Cuts in a document. -/
def json (cuts : Cuts Binary64) : Json :=
  .object (Side.all.map fun side => (side.name, Json.ofOption .number (cuts.get side)))

end Cuts

namespace Board

/-- The third coordinate in a document. It is an integer if a segment has no level
of its own. -/
def levelJson (board : Board Binary64) : Json :=
  if board.segment.any (·.level.isNone) then .integer 0
  else Json.ofOption .number board.z

/-- The angle in a document. It is an integer if there is no segment. -/
def angleJson (board : Board Binary64) : Json :=
  if board.segment.isNone then .integer 0 else .number board.angle

/-- A board in a document. -/
def json (board : Board Binary64) : Json :=
  .object [("id", .string board.id), ("name", .string board.name),
    ("w", .number board.width), ("h", .number board.height), ("d", .number board.depth),
    ("x", Json.ofOption .number board.x), ("y", Json.ofOption .number board.y),
    ("z", board.levelJson), ("has_pos", .bool board.hasPosition), ("angle", board.angleJson),
    ("from_to", Json.ofOption Segment.json board.segment),
    ("cuts", Json.ofOption Cuts.json board.cuts), ("view", Json.ofOption .string board.view),
    ("color", .string board.color), ("visible", .bool board.visible)]

/-- Start of the line of a board: its id and its name. -/
def lineStart (board : Board Binary64) : Text :=
  '[' :: board.id ++ "] ".toList ++ board.name ++ ": ".toList

/-- Two lengths with a multiplication sign. -/
def sizeText (width height : Binary64) : Text :=
  width.briefText ++ " x ".toList ++ height.briefText

/-- The line of a board with its projection. -/
def projectionLine (direction : Direction) (board : Board Binary64) : Text :=
  let rectangle := board.project direction
  board.lineStart ++ rectangle.x.briefText ++ ", ".toList ++ rectangle.y.briefText ++
    ", ".toList ++ sizeText rectangle.width rectangle.height

/-- A face with its name and size. -/
def faceText (board : Board Binary64) (face : Face) : Text :=
  let size := board.faceSize face
  face.name.toList ++ ' ' :: sizeText size.width size.height

/-- The line of a board with the faces that it shows. -/
def facesLine (board : Board Binary64) : Text :=
  board.lineStart ++
    (", ".toList).intercalate ((board.shownFaces?.getD []).map board.faceText)

/-- Wordings of the issues of a board. -/
def issueLines (tests : Outline.Tests) (board : Board Binary64) : List Text :=
  (board.issuesBy tests).map fun issue => (issue.message board.id).toList

end Board

namespace Direction

/-- The line of a direction and its axes. -/
def line (direction : Direction) : Text :=
  (direction.name ++ ": " ++ direction.axes.1 ++ " / " ++ direction.axes.2).toList

end Direction

namespace Design

/-- A design as a document. -/
def json (design : Design) : Json :=
  .object [("boards", .array (design.boards.map Board.json)),
    ("errors", .array (design.problems.map fun event => .string event.message.toList)),
    ("var_count", .integer design.definitionCount)]

/-- Wordings of the problems of a design. -/
def problemLines (design : Design) : List Text :=
  design.problems.map fun event => event.message.toList

/-- A count of something. -/
def countText (count : Nat) (noun : String) : Text := Text.ofNat count ++ ' ' :: noun.toList

section Issues

variable (tests : Outline.Tests)

/-- Wordings of the issues of all boards. -/
def issueLines (design : Design) : List Text := design.boards.flatMap (Board.issueLines tests)

/-- Whether nothing is wrong with a design. -/
def isSound (design : Design) : Bool :=
  design.problems.isEmpty && (design.issueLines tests).isEmpty

/-- The line with the counts of boards, definitions, problems and issues. -/
def summaryLine (design : Design) : Text :=
  (", ".toList).intercalate
    [countText design.boards.length "boards", countText design.definitionCount "variables",
      countText design.problems.length "errors",
      countText (design.issueLines tests).length "shape issues"]

end Issues

/-- The direction, and the projections of all boards. -/
def projectionLines (design : Design) (direction : Direction) : List Text :=
  direction.line :: design.boards.map (Board.projectionLine direction)

/-- The faces of all boards. -/
def facesLines (design : Design) : List Text := design.boards.map Board.facesLine

end Design
end Joinery
