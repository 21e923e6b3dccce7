import Joinery.Board

/-!
# Projections

A board is seen as a rectangle from each of six directions. Seen from behind, from
the right or from below, one axis runs the other way.
-/

namespace Joinery

/-- A direction from which a board is seen. -/
inductive Direction
  | front
  | back
  | left
  | right
  | top
  | bottom
  deriving DecidableEq

namespace Direction

/-- The directions in the order in which they are listed. -/
def all : List Direction := [.front, .back, .left, .right, .top, .bottom]

/-- Name of a direction. -/
def name : Direction → String
  | .front => "front"
  | .back => "back"
  | .left => "left"
  | .right => "right"
  | .top => "top"
  | .bottom => "bottom"

/-- The direction with a name. -/
def ofName? (name : Text) : Option Direction :=
  all.find? fun direction => direction.name.toList = name

/-- Wording for a name that is no direction. -/
def unknownMessage (name : Text) : String := "unknown projection: " ++ String.ofList name

/-- Names of the two axes that are seen. -/
def axes : Direction → String × String
  | .front | .back => ("X", "Y")
  | .left | .right => ("Z", "Y")
  | .top | .bottom => ("X", "Z")

end Direction

/-- A rectangle with its lower left corner. -/
structure Rectangle (α : Type) where
  x : α
  y : α
  width : α
  height : α
  deriving DecidableEq

/-- The rectangle of a board from a direction. A board at zero is at zero from the
other side too, less its extent. -/
def Board.project {α : Type} [OfNat α 0] [BEq α] [Sub α] (board : Board α) :
    Direction → Rectangle α
  | .front => ⟨board.originX, board.originY, board.width, board.height⟩
  | .back => ⟨0 - board.originX - board.width, board.originY, board.width, board.height⟩
  | .left => ⟨board.originZ, board.originY, board.depth, board.height⟩
  | .right => ⟨0 - board.originZ - board.depth, board.originY, board.depth, board.height⟩
  | .top => ⟨board.originX, board.originZ, board.width, board.depth⟩
  | .bottom => ⟨board.originX, 0 - board.originZ - board.depth, board.width, board.depth⟩

end Joinery
