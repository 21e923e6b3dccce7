import Joinery.Heading
import Joinery.Options
import Joinery.Binary64.Angle

/-!
# Assembly of boards

A board is assembled in two steps. A draft has the dimensions and the position; it
already shows whether the width differs from the length of a segment, and then the
length counts. The board has the remaining options as well.
-/

namespace Joinery

/-- A width that differs from the length of a segment. -/
structure WidthNotice where
  width : Binary64
  /-- The length, rounded to an integer. -/
  length : Int
  deriving DecidableEq

/-- A board with its dimensions and its position. -/
structure Draft where
  width : Binary64
  height : Binary64
  depth : Binary64
  position : Options.Position
  /-- Options that are not read yet. -/
  options : Text

namespace Draft

/-- Reads the dimensions and the position of a board. -/
def ofHeading (scope : Scope) (heading : Heading) : Except Cause Draft := do
  let text := Text.strip heading.dimensions
  match splitDimensions text with
  | [width, height, depth] =>
      let width ← evaluate scope width
      let height ← evaluate scope height
      let depth ← evaluate scope depth
      let (position, options) ←
        Options.readPosition scope (Options.withoutComment heading.options)
      return ⟨width, height, depth, position, options⟩
  | parts => .error (.dimensionCount parts.length text)

/-- Length of a segment. -/
def lengthOf (x1 y1 x2 y2 : Binary64) : Binary64 := (x2 - x1).hypot (y2 - y1)

/-- The notice that a draft gives, if its width is not within one of the length. -/
def notice? (draft : Draft) : Except Cause (Option WidthNotice) :=
  match draft.position with
  | .segment x1 y1 x2 y2 =>
      let length := lengthOf x1 y1 x2 y2
      if 1 < (draft.width - length).abs then
        match (length + Binary64.half).floor? with
        | some rounded => .ok (some ⟨draft.width, rounded⟩)
        | none => .error .tooLong
      else .ok none
  | _ => .ok none

/-- Width and position of a board as the draft has them. -/
structure Placement where
  width : Binary64
  x : Option Binary64
  y : Option Binary64
  z : Option Binary64
  hasPosition : Bool
  angle : Binary64
  segment : Option (Segment Binary64)

/-- Reads the level of a segment, takes its length as the width, and gives the
options behind it. -/
def place (scope : Scope) (draft : Draft) : Except Cause (Placement × Text) :=
  match draft.position with
  | .unset => .ok (⟨draft.width, none, none, none, false, 0, none⟩, draft.options)
  | .point x y z =>
      .ok (⟨draft.width, some x, some y, some z, true, 0, none⟩, draft.options)
  | .segment x1 y1 x2 y2 => do
      let (level, options) ← Options.readLevel scope draft.options
      let angle := (Binary64.atan2 (y2 - y1) (x2 - x1)).toDegrees
      match (lengthOf x1 y1 x2 y2).roundThousandths with
      | .ok width =>
          return (⟨width, some x1, some y1, some (level.getD 0), true, angle,
            some ⟨x1, y1, x2, y2, level⟩⟩, options)
      | .error _ => .error .tooLong

/-- Reads the options behind the position, and gives the board with its id, its
name and the index of its creation. -/
def board (scope : Scope) (id name : Text) (index : Nat) (draft : Draft) :
    Except Cause (Board Binary64) := do
  let (placement, options) ← draft.place scope
  let (cuts, options) ← Options.takeCuts scope options
  let (view, options) ← Options.takeView options
  return {
    id, name
    width := placement.width, height := draft.height, depth := draft.depth
    x := placement.x, y := placement.y, z := placement.z
    hasPosition := placement.hasPosition, angle := placement.angle
    segment := placement.segment
    cuts, view
    color := (Options.color? options).getD (Palette.autoColor index)
    visible := true }

end Draft
end Joinery
