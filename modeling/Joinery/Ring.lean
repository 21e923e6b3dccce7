import Joinery.Outline

/-!
# Rings

A ring is a closed line through points with integer coordinates, so that every
test is exact. It is simple if it meets itself nowhere: two edges share at most
the corner between them. The test is the one that the program runs with, in the place
of one of a library.
-/

namespace Joinery
namespace Ring

/-- Twice the signed area of the triangle of three points; it is positive if they
turn to the left. -/
def turning (first second third : Point Int) : Int :=
  (second.x - first.x) * (third.y - first.y) - (second.y - first.y) * (third.x - first.x)

/-- Whether a number is between two others or equal to one of them. -/
def between (first middle last : Int) : Bool :=
  min first last ≤ middle && middle ≤ max first last

/-- Whether a point that is on the line through two others is between them. -/
def covers (first last point : Point Int) : Bool :=
  between first.x point.x last.x && between first.y point.y last.y

/-- An edge between two different points. -/
structure Edge where
  start : Point Int
  stop : Point Int

/-- Whether two edges have a point in common. -/
def Edge.meets (left right : Edge) : Bool :=
  let start := (turning left.start left.stop right.start).sign
  let stop := (turning left.start left.stop right.stop).sign
  let otherStart := (turning right.start right.stop left.start).sign
  let otherStop := (turning right.start right.stop left.stop).sign
  (start ≠ stop && otherStart ≠ otherStop) ||
    (start == 0 && covers left.start left.stop right.start) ||
    (stop == 0 && covers left.start left.stop right.stop) ||
    (otherStart == 0 && covers right.start right.stop left.start) ||
    (otherStop == 0 && covers right.start right.stop left.stop)

/-- Whether the second edge, which starts where the first one stops, runs back on
it. -/
def Edge.foldsInto (left right : Edge) : Bool :=
  turning left.start left.stop right.stop == 0 &&
    0 < (left.start.x - left.stop.x) * (right.stop.x - left.stop.x) +
      (left.start.y - left.stop.y) * (right.stop.y - left.stop.y)

/-- Edges through points in a row; equal neighbours make no edge. -/
def edges : List (Point Int) → List Edge
  | first :: second :: rest =>
      if first = second then edges (second :: rest)
      else ⟨first, second⟩ :: edges (second :: rest)
  | _ => []

/-- Whether an edge folds into the next of a row or meets one of the others. -/
def collides (edge : Edge) : List Edge → Bool
  | [] => false
  | next :: rest => edge.foldsInto next || rest.any edge.meets

/-- Whether edges collide when the last one is followed by none. -/
def crossesOpen : List Edge → Bool
  | [] => false
  | edge :: rest => collides edge rest || crossesOpen rest

/-- Whether the edges of a closed line collide. The last edge is next to the first
one, which is compared with it as such. -/
def crosses : List Edge → Bool
  | [] => false
  | first :: rest =>
      match rest.getLast? with
      | none => false
      | some last =>
          collides first rest.dropLast || last.foldsInto first || crossesOpen rest

/-- Whether a closed line through some points meets itself nowhere but in its corners; a
single point makes no line. -/
def isSimple? (points : List (Point Int)) : Option Bool :=
  match points with
  | [_] => none
  | _ => some (!crosses (edges points))

end Ring
end Joinery
