import Joinery.Binary64.Basic
import Joinery.Text.Basic

/-!
# Boards

A board is a box with a width, a height and a depth. It may have a position, an
angle, cuts that replace the lengths of single edges of its front face, and a list
of faces to be shown. Numbers are of any type, so that geometry can be computed
with rounding and reasoned about without.
-/

namespace Joinery

/-- Lengths that replace single edges of the front face. -/
structure Cuts (α : Type) where
  left : Option α
  right : Option α
  top : Option α
  bottom : Option α
  deriving DecidableEq

/-- An edge of the front face. -/
inductive Side
  | left
  | right
  | top
  | bottom
  deriving DecidableEq

namespace Side

/-- The sides in the order in which they are reported. -/
def all : List Side := [.left, .right, .top, .bottom]

/-- Name of a side. -/
def name : Side → String
  | .left => "left"
  | .right => "right"
  | .top => "top"
  | .bottom => "bottom"

end Side

namespace Cuts

/-- Cuts without any side. -/
def none : Cuts α := ⟨.none, .none, .none, .none⟩

/-- The length of a side. -/
def get (cuts : Cuts α) : Side → Option α
  | .left => cuts.left
  | .right => cuts.right
  | .top => cuts.top
  | .bottom => cuts.bottom

/-- The cuts with the length of one side. -/
def set (cuts : Cuts α) (length : α) : Side → Cuts α
  | .left => { cuts with left := some length }
  | .right => { cuts with right := some length }
  | .top => { cuts with top := some length }
  | .bottom => { cuts with bottom := some length }

end Cuts

/-- The lower edge of a board that was placed by two points. -/
structure Segment (α : Type) where
  x1 : α
  y1 : α
  x2 : α
  y2 : α
  /-- The third coordinate, if one was given. -/
  level : Option α
  deriving DecidableEq

/-- A board. -/
structure Board (α : Type) where
  id : Text
  name : Text
  width : α
  height : α
  depth : α
  x : Option α
  y : Option α
  z : Option α
  hasPosition : Bool
  /-- Angle in degrees of the width against the first axis. -/
  angle : α
  segment : Option (Segment α)
  cuts : Option (Cuts α)
  /-- Letters of the faces to be shown. -/
  view : Option Text
  color : Text
  visible : Bool
  deriving DecidableEq

section Coordinates

variable {α : Type} [OfNat α 0] [BEq α]

/-- A coordinate that is not set is zero, and a zero of either sign is plain zero. -/
def coordinate : Option α → α
  | none => 0
  | some value => if value == 0 then 0 else value

namespace Board

/-- First coordinate of the origin. -/
def originX (board : Board α) : α := coordinate board.x

/-- Second coordinate of the origin. -/
def originY (board : Board α) : α := coordinate board.y

/-- Third coordinate of the origin. -/
def originZ (board : Board α) : α := coordinate board.z

end Board
end Coordinates
end Joinery
