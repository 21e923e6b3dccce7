import Joinery.Outline
import Joinery.Binary64.Angle

/-!
# Properties

Numbers of a board that expressions can refer to by name. An upright board and a
turned one have the same properties. For a turned board the extent is that of its
four corners, and the second end of its width is the second corner.
-/

namespace Joinery

/-- Cosine and sine of an angle. -/
structure Turn (α : Type) where
  cosine : α
  sine : α

/-- A number of a board that has a name. -/
inductive Property
  | x
  | y
  | z
  | width
  | height
  | depth
  | back
  | angle
  | right
  | top
  | centerX
  | centerY
  | endX
  | endY
  deriving DecidableEq

namespace Property

/-- All properties with their names. -/
def names : List (String × Property) := [
  ("x", .x), ("y", .y), ("z", .z), ("w", .width), ("h", .height), ("d", .depth),
  ("back", .back), ("angle", .angle), ("right", .right), ("top", .top),
  ("cx", .centerX), ("cy", .centerY), ("x2", .endX), ("y2", .endY)]

/-- The property with a name. -/
def ofName? (name : Text) : Option Property :=
  (names.find? fun entry => entry.1.toList = name).map (·.2)

/-- Whether the property depends on the angle. -/
def isTurned : Property → Bool
  | .right | .top | .centerX | .centerY | .endX | .endY => true
  | _ => false

end Property

namespace Board

variable {α : Type} [OfNat α 0] [OfNat α 2] [BEq α] [Add α] [Sub α] [Mul α] [Div α]

/-- The second corner of a turned board. -/
def secondCorner (turn : Turn α) (board : Board α) : Point α :=
  ⟨board.originX + board.width * turn.cosine, board.originY + board.width * turn.sine⟩

/-- The third corner of a turned board. -/
def thirdCorner (turn : Turn α) (board : Board α) : Point α :=
  ⟨board.originX + board.width * turn.cosine - board.height * turn.sine,
    board.originY + board.width * turn.sine + board.height * turn.cosine⟩

/-- The last corner of a turned board. -/
def lastCorner (turn : Turn α) (board : Board α) : Point α :=
  ⟨board.originX - board.height * turn.sine, board.originY + board.height * turn.cosine⟩

/-- Corners of a board turned about its origin. -/
def corners (turn : Turn α) (board : Board α) : List (Point α) :=
  [⟨board.originX, board.originY⟩, board.secondCorner turn, board.thirdCorner turn,
    board.lastCorner turn]

section Extent

variable [LT α] [DecidableLT α]

/-- A property of a turned board. -/
def turnedMeasure (turn : Turn α) (board : Board α) : Property → α
  | .x => board.originX
  | .y => board.originY
  | .z => board.originZ
  | .width => board.width
  | .height => board.height
  | .depth => board.depth
  | .back => board.originZ + board.depth
  | .angle => coordinate (some board.angle)
  | .right => rightmost
  | .top => topmost
  | .centerX => (smallest board.originX (others.map (·.x)) + rightmost) / 2
  | .centerY => (smallest board.originY (others.map (·.y)) + topmost) / 2
  | .endX => (board.secondCorner turn).x
  | .endY => (board.secondCorner turn).y
where
  others := (board.corners turn).tail
  rightmost := largest board.originX (others.map (·.x))
  topmost := largest board.originY (others.map (·.y))

/-- A property of an upright board. -/
def uprightMeasure (board : Board α) : Property → α
  | .x => board.originX
  | .y => board.originY
  | .z => board.originZ
  | .width => board.width
  | .height => board.height
  | .depth => board.depth
  | .back => board.originZ + board.depth
  | .angle => coordinate (some board.angle)
  | .right => board.originX + board.width
  | .top => board.originY + board.height
  | .centerX => board.originX + board.width / 2
  | .centerY => board.originY + board.height / 2
  | .endX => board.originX + board.width
  | .endY => board.originY

end Extent

/-- Cosine and sine of the angle of a board, unless it is infinite. -/
def turn? (board : Board Binary64) : Option (Turn Binary64) :=
  match board.angle.toRadians with
  | .infinite _ => none
  | radians => some ⟨radians.cos, radians.sin⟩

/-- Corners of a board turned by its angle, unless that is infinite. -/
def turnedCorners? (board : Board Binary64) : Option (List (Point Binary64)) :=
  board.turn?.map board.corners

end Board
end Joinery
