import Joinery.Ring
import Joinery.Binary64.Decimal

/-!
# Issues of an outline

A board can be read without a fault and still not be cut: a dimension or a cut is
not positive, or the outline crosses itself or has no area. The two tests for the
outline belong to a library of geometry, so whatever uses them has them as a
parameter. `Outline.tests` are the ones that the program runs with.
-/

namespace Joinery

/-- A length that has to be positive. -/
inductive Issue.Length
  | width
  | height
  | depth
  | cut (side : Side)
  deriving DecidableEq

/-- What keeps a board from being cut. -/
inductive Issue
  | notPositive (length : Issue.Length) (value : Binary64)
  | crossing
  | noArea
  deriving DecidableEq

namespace Issue

/-- Name of a length. -/
def Length.name : Length → String
  | .width => "width"
  | .height => "height"
  | .depth => "depth"
  | .cut side => "cut " ++ side.name

/-- Wording of an issue of the board with an id. -/
def message (id : Text) (issue : Issue) : String :=
  "[" ++ String.ofList id ++ "] " ++
    match issue with
    | .notPositive length value =>
        length.name ++ " must be positive, got " ++ String.ofList value.briefText
    | .crossing => "cut outline crosses itself"
    | .noArea => "cut outline has no area"

end Issue

namespace Outline

section Area

variable {α : Type} [OfNat α 0] [OfNat α 2] [Add α] [Sub α] [Mul α] [Div α]

/-- Sum of the signed areas between the first corner and pairs of corners in a row:
the previous second coordinate less the next one, times the distance of the corner
between them from the first axis of the outline. -/
def areaSum (left : α) : (sum : α) → List (Point α) → α
  | sum, before :: corner :: after :: rest =>
      areaSum left (sum + (corner.x - left) * (before.y - after.y)) (corner :: after :: rest)
  | sum, _ => sum

/-- Signed area inside a closed outline, whose first corner comes again at the
end. -/
def signedArea (outline : List (Point α)) : α :=
  match outline with
  | [] => 0
  | corner :: _ => areaSum corner.x 0 (outline ++ [corner]) / 2

end Area

/-- A point with coordinates in units, if they are finite. -/
def exactPoint? (point : Point Binary64) : Option (Point Int) :=
  match point.x, point.y with
  | .finite left x _, .finite down y _ =>
      some ⟨Binary64.signedUnits left x, Binary64.signedUnits down y⟩
  | _, _ => none

/-- Whether two points are at the same place. A point is at its own place even if it has
no coordinates. -/
def isSamePlace (first second : Point Binary64) : Bool :=
  first = second || (first.x == second.x && first.y == second.y)

/-- The points with the first one again at the end, if it is not there already. -/
def close (points : List (Point Binary64)) : List (Point Binary64) :=
  match points.head?, points.getLast? with
  | some first, some last => if isSamePlace first last then points else points ++ [first]
  | _, _ => points

/-- What a library of geometry tells of outlines. -/
structure Tests where
  /-- Whether a closed line meets itself nowhere but in its corners, if it is a line. -/
  isSimple? : List (Point Binary64) → Option Bool
  /-- Whether a closed outline has no area. -/
  hasNoArea : List (Point Binary64) → Bool

/-- Whether the ring through some points crosses or touches itself, if it is one. -/
def crossesItselfBy? (tests : Tests) (points : List (Point Binary64)) : Option Bool :=
  (tests.isSimple? (close points)).map (!·)

/-- Whether a closed line meets itself nowhere but in its corners; a single point makes no
line. Points at infinity make no crossing. -/
def isSimple? (line : List (Point Binary64)) : Option Bool :=
  match line.mapM exactPoint? with
  | some points => Ring.isSimple? points
  | none => if line.length = 1 then none else some true

/-- Whether a closed outline has no area. -/
def hasNoArea (outline : List (Point Binary64)) : Bool := (signedArea outline).abs ≤ 0

/-- The tests that the program runs with. -/
def tests : Tests := ⟨isSimple?, hasNoArea⟩

/-- Whether the ring through some points crosses or touches itself, if it is one. -/
def crossesItself? (points : List (Point Binary64)) : Option Bool := crossesItselfBy? tests points

end Outline

namespace Board

/-- A length that is not positive as an issue. -/
def lengthIssue (length : Issue.Length) (value : Binary64) : List Issue :=
  if value ≤ 0 then [.notPositive length value] else []

/-- Issues of the lengths of the cuts. -/
def cutIssues (cuts : Cuts Binary64) : List Issue :=
  Side.all.flatMap fun side =>
    match cuts.get side with
    | some length => lengthIssue (.cut side) length
    | none => []

section Tests

variable (tests : Outline.Tests)

/-- Issues of the outline as a whole. -/
def outlineIssuesBy (board : Board Binary64) : List Issue :=
  if Outline.crossesItselfBy? tests board.outline = some true then [.crossing]
  else if tests.hasNoArea board.outline then [.noArea]
  else []

/-- Issues of a board. The outline is looked at if it is cut. -/
def issuesBy (board : Board Binary64) : List Issue :=
  lengthIssue .width board.width ++ lengthIssue .height board.height ++
    lengthIssue .depth board.depth ++
    match board.cuts with
    | some cuts =>
        if board.hasCuts then cutIssues cuts ++ board.outlineIssuesBy tests else []
    | none => []

end Tests

/-- Issues of a board by the tests that the program runs with. -/
def issues (board : Board Binary64) : List Issue := board.issuesBy Outline.tests

end Board
end Joinery
