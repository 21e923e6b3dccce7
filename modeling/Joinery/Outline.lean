import Joinery.Board

/-!
# Outlines

The outline of a board is its front face with the cuts applied. It has four corners
and is anchored at the lower left one. `layout` places the outlines of some boards
side by side.
-/

namespace Joinery

/-- A point of the plane. -/
structure Point (α : Type) where
  x : α
  y : α
  deriving DecidableEq

section Extremes

variable {α : Type} [LT α] [DecidableLT α]

/-- The first largest of some numbers. -/
def largest (first : α) (others : List α) : α :=
  others.foldl (fun best next => if best < next then next else best) first

/-- The first smallest of some numbers. -/
def smallest (first : α) (others : List α) : α :=
  others.foldl (fun best next => if next < best then next else best) first

end Extremes

namespace Board

section Outline

variable {α : Type} [OfNat α 0]

/-- Whether some edge of the front face has a length of its own. -/
def hasCuts (board : Board α) : Bool :=
  match board.cuts with
  | none => false
  | some cuts => Side.all.any fun side => (cuts.get side).isSome

/-- Length of an edge of the front face. -/
def edge (board : Board α) (side : Side) : α :=
  (board.cuts.bind (·.get side)).getD
    (match side with
    | .left | .right => board.height
    | .top | .bottom => board.width)

/-- Corners of the outline, from the lower left one over the lower right one. -/
def outline (board : Board α) : List (Point α) :=
  [⟨0, 0⟩, ⟨board.edge .bottom, 0⟩, ⟨board.edge .top, board.edge .right⟩,
    ⟨0, board.edge .left⟩]

end Outline
end Board

namespace Outline

variable {α : Type} [OfNat α 0]

/-- Largest first coordinate of an outline. -/
def rightEdge [LT α] [DecidableLT α] : List (Point α) → α
  | [] => 0
  | corner :: others => largest corner.x (others.map (·.x))

/-- An outline moved along the first axis. -/
def shift [Add α] (offset : α) (outline : List (Point α)) : List (Point α) :=
  outline.map fun corner => ⟨corner.x + offset, corner.y⟩

/-- Outlines side by side from an offset on, each with its board. -/
def layoutFrom [Add α] [LT α] [DecidableLT α] (spacing : α) :
    (offset : α) → List (Board α) → List (Board α × List (Point α))
  | _, [] => []
  | offset, board :: rest =>
      (board, shift offset board.outline) ::
        layoutFrom spacing (offset + (rightEdge board.outline + spacing)) rest

/-- Outlines side by side with a space between them. -/
def layout [Add α] [LT α] [DecidableLT α] (spacing : α) (boards : List (Board α)) :
    List (Board α × List (Point α)) :=
  layoutFrom spacing 0 boards

end Outline
end Joinery
