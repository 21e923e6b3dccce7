import Joinery.Proofs.Expression.Operand
import Joinery.Proofs.Palette
import Joinery.Proofs.Text.Spelling
import Joinery.Session

/-!
# Canonical board commands

A canonical board command has an optional id, three dimensions, a name, and an optional
position, cuts, view and colour in this order, with single blanks between them. Keywords
and sides are spelled with capitals or small letters. The command has a text, and it says
which board that text makes.
-/

namespace Joinery
namespace Canonical

open Arithmetic Expression

variable {scope : Scope}

/-- An expression on a single line, with its value in a scope. -/
structure Quantity (scope : Scope) where
  text : Text
  tree : Tree Operand .sum
  written : tree.IsWritten Operand.text text
  oneLine : '\n' ∉ text
  value : Binary64
  evaluates : evaluate scope text = .ok value

/-- A section of the options: a keyword and what stands behind it. -/
structure Section (keyword : String) (α : Type) where
  spelling : Text.Spelling keyword.toList
  content : α

/-- The phrases of an optional section. -/
def phrasesOf {keyword : String} {α : Type} (body : α → List Text) :
    Option (Section keyword α) → List Text
  | none => []
  | some part => part.spelling.text :: body part.content

/-! ## Position -/

/-- A point of the plane. -/
structure PlanePoint (scope : Scope) where
  x : Quantity scope
  y : Quantity scope

/-- A point of space. -/
structure SpacePoint (scope : Scope) where
  x : Quantity scope
  y : Quantity scope
  z : Quantity scope

/-- The coordinates of a point, with commas between them. -/
def PlanePoint.text (point : PlanePoint scope) : Text :=
  Text.joined ',' [point.x.text, point.y.text]

/-- The coordinates of a point, with commas between them. -/
def SpacePoint.text (point : SpacePoint scope) : Text :=
  Text.joined ',' [point.x.text, point.y.text, point.z.text]

/-- A segment from one point to another, perhaps at a level, whose length can be
rounded. -/
structure Segment (scope : Scope) where
  start : Section "from" (PlanePoint scope)
  stop : Section "to" (PlanePoint scope)
  level : Option (Section "z" (Quantity scope))
  length : Binary64
  measured :
    (Binary64.hypot (stop.content.x.value - start.content.x.value)
      (stop.content.y.value - start.content.y.value)).roundThousandths = .ok length

namespace Segment

variable (segment : Segment scope)

/-- The exact length. -/
def distance : Binary64 :=
  Binary64.hypot (segment.stop.content.x.value - segment.start.content.x.value)
    (segment.stop.content.y.value - segment.start.content.y.value)

/-- The angle against the first axis in degrees. -/
def angle : Binary64 :=
  (Binary64.atan2 (segment.stop.content.y.value - segment.start.content.y.value)
    (segment.stop.content.x.value - segment.start.content.x.value)).toDegrees

/-- The value of the level, if there is one. -/
def level? : Option Binary64 := segment.level.map (·.content.value)

/-- The segment in numbers. -/
def value : Joinery.Segment Binary64 :=
  ⟨segment.start.content.x.value, segment.start.content.y.value, segment.stop.content.x.value,
    segment.stop.content.y.value, segment.level?⟩

end Segment

/-- Where a board is. -/
inductive Position (scope : Scope)
  | unset
  | point (part : Section "at" (SpacePoint scope))
  | segment (segment : Segment scope)

namespace Position

/-- The phrases of a position. -/
def phrases : Position scope → List Text
  | .unset => []
  | .point part => [part.spelling.text, part.content.text]
  | .segment part =>
      part.start.spelling.text :: part.start.content.text ::
        part.stop.spelling.text :: part.stop.content.text ::
        phrasesOf (fun level => [level.text]) part.level

/-- The placement of a board with a width. The length of a segment counts as the width. -/
def placement (width : Binary64) : Position scope → Draft.Placement
  | .unset => ⟨width, none, none, none, false, 0, none⟩
  | .point part =>
      ⟨width, some part.content.x.value, some part.content.y.value, some part.content.z.value,
        true, 0, none⟩
  | .segment part =>
      ⟨part.length, some part.start.content.x.value, some part.start.content.y.value,
        some (part.level?.getD 0), true, part.angle, some part.value⟩

/-- The notice that a width is not within one of the length of a segment. -/
def notice? (width : Binary64) : Position scope → Option WidthNotice
  | .segment part =>
      if 1 < (width - part.distance).abs then
        (part.distance + Binary64.half).floor?.map fun length => ⟨width, length⟩
      else none
  | _ => none

end Position

/-! ## Cuts, view and colour -/

/-- A side with its length, which has no white space in it. -/
structure Cut (scope : Scope) where
  side : Side
  spelling : Text.Spelling side.name.toList
  length : Quantity scope
  solid : ∀ character ∈ length.text, Text.isBlank character = false

/-- At least one cut. -/
abbrev CutList (scope : Scope) := {cuts : List (Cut scope) // cuts ≠ []}

namespace CutList

/-- The phrases of some cuts. -/
def phrases (cuts : CutList scope) : List Text :=
  cuts.val.flatMap fun cut => [cut.spelling.text, cut.length.text]

/-- The length of every side; of two lengths of a side, the last one. -/
def value (cuts : CutList scope) : Cuts Binary64 :=
  cuts.val.foldl (fun value cut => value.set cut.length.value cut.side) Cuts.none

end CutList

/-- Letters of faces in any case, at least one. -/
structure View where
  letters : Text
  nonempty : letters ≠ []
  areFaces : ∀ letter ∈ letters, letter.toLower ∈ Options.faceLetters

/-- The faces in small letters, each at its first place. -/
def View.value (view : View) : Text := (view.letters.map Char.toLower).eraseDups

/-- A number sign with three or six hexadecimal digits. -/
abbrev Color := {color : Text // Palette.IsColor color}

/-! ## Commands -/

/-- A name in double quotes. -/
structure Name where
  text : Text
  nonempty : text ≠ []
  unquoted : '"' ∉ text
  oneLine : '\n' ∉ text

/-- The name with its quotes. -/
def Name.quoted (name : Name) : Text := '"' :: (name.text ++ ['"'])

/-- A dimension behind a separator. -/
structure LaterDimension (scope : Scope) extends Quantity scope where
  starts : Text.startsWith Dimension.isStart text = true

/-- A board command whose expressions have values in a scope. -/
structure BoardCommand (scope : Scope) where
  word : Text.Spelling Command.boardWord
  id : Option Identifier
  width : Quantity scope
  height : LaterDimension scope
  depth : LaterDimension scope
  name : Name
  position : Position scope
  cuts : Option (Section "cut" (CutList scope))
  view : Option (Section "view" View)
  color : Option (Section "color" Color)

namespace BoardCommand

variable (command : BoardCommand scope)

/-- The id in brackets, if there is one. -/
def bracketedId : Text :=
  match command.id with
  | none => []
  | some id => '[' :: (id.text ++ [']'])

/-- The phrases of the dimensions and of the separators between them. -/
def dimensions : List Text :=
  [command.width.text, ['x'], command.height.text, ['x'], command.depth.text]

/-- The phrases of the colour. -/
def colorPhrases : List Text := phrasesOf (fun color => [color.val]) command.color

/-- The phrases of the view and of what stands behind it. -/
def viewPhrases : List Text :=
  phrasesOf (fun view => [view.letters]) command.view ++ command.colorPhrases

/-- The phrases of the cuts and of what stands behind them. -/
def cutPhrases : List Text := phrasesOf CutList.phrases command.cuts ++ command.viewPhrases

/-- The phrases of the options. -/
def options : List Text := command.position.phrases ++ command.cutPhrases

/-- The text of a command: its phrases with single blanks between them. -/
def text : Text :=
  Text.joined ' ' ((command.word.text ++ command.bracketedId) ::
    (command.dimensions ++ command.name.quoted :: command.options))

/-- The id of the board, when some boards are there already. -/
def idAt (count : Nat) : Text := (command.id.map (·.text)).getD ('b' :: Text.ofNat count)

/-- The notice that the command gives. -/
def notice? : Option WidthNotice := command.position.notice? command.width.value

/-- The board that the command describes, when some boards are there already. -/
def board (count : Nat) : Board Binary64 :=
  let placement := command.position.placement command.width.value
  { id := command.idAt count
    name := command.name.text
    width := placement.width
    height := command.height.value
    depth := command.depth.value
    x := placement.x
    y := placement.y
    z := placement.z
    hasPosition := placement.hasPosition
    angle := placement.angle
    segment := placement.segment
    cuts := command.cuts.map (·.content.value)
    view := command.view.map (·.content.value)
    color := (command.color.map (·.content.val)).getD (Palette.autoColor count)
    visible := true }

end BoardCommand
end Canonical
end Joinery
