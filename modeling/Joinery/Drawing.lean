import Joinery.ExportOptions
import Joinery.Outline

/-!
# Drawings

A drawing of boards has one closed polyline and one label for every board. The
polylines are the outlines of the boards side by side, and the labels stand below
them. A library keeps drawings in files, and it decides which texts are names of
layers and which names are the same, so whatever draws has it as a parameter.
-/

namespace Joinery

/-- A layer of a drawing and the number of its colour. -/
structure Layer where
  name : Text
  color : Nat
  deriving DecidableEq

/-- Something that is drawn on a layer. -/
inductive Entity
  | polyline (layer : Text) (isClosed : Bool) (points : List (Point Binary64))
  | label (layer text : Text) (height : Binary64) (position : Point Binary64)
  deriving DecidableEq

namespace Entity

/-- The layer of an entity. -/
def layer : Entity → Text
  | .polyline layer _ _ => layer
  | .label layer _ _ _ => layer

end Entity

/-- A drawing. -/
structure Drawing where
  units : LengthUnit
  layers : List Layer
  entities : List Entity
  deriving DecidableEq

/-- Number of a unit in a drawing. -/
def LengthUnit.code : LengthUnit → Nat
  | .millimetres => 4
  | .inches => 1
  | .unitless => 0

namespace Drawing

/-- What a library of drawings decides. -/
structure Library where
  /-- Whether a text may be the name of a layer. -/
  isName : Text → Bool
  /-- Whether two texts are the name of the same layer. -/
  isSameName : Text → Text → Bool
  /-- The layers of a new drawing. -/
  layers : List Layer
  /-- What is read from the file of a drawing, if it can be read. -/
  stored? : Drawing → Option Drawing

/-- The layers with one more, unless its name is taken. -/
def Library.declare (library : Library) (layers : List Layer) (layer : Layer) : List Layer :=
  if layers.any (library.isSameName ·.name layer.name) then layers else layers ++ [layer]

/-- Name of the version of the file format. -/
def version : String := "AC1018"

/-- Name of the layer of outlines, unless it is renamed. -/
def outlineLayer : Text := "CUT".toList

/-- Name of the layer of labels, unless it is renamed. -/
def labelLayer : Text := "TEXT".toList

/-- First coordinate of the first point. -/
def startX (points : List (Point Binary64)) : Binary64 := (points.head?.map (·.x)).getD 0

/-- The entities of a board whose outline is placed. -/
def entitiesOf (options : ExportOptions) (board : Board Binary64)
    (points : List (Point Binary64)) : List Entity :=
  [.polyline (options.layer outlineLayer) true points,
    .label (options.layer labelLayer) board.name options.labelHeight
      ⟨startX points, -2 * options.labelHeight⟩]

/-- Why there is no drawing. -/
inductive Fault
  /-- A text that may not be the name of a layer. -/
  | notAName (text : Text)
  deriving DecidableEq

/-- Wording of a fault. -/
def Fault.message : Fault → String
  | .notAName text => "not a name of a layer: " ++ String.ofList text

section Library

variable (library : Library) (options : ExportOptions) (boards : List (Board Binary64))

/-- Layers of a drawing with the given options. -/
def layersFor : List Layer :=
  [⟨options.layer outlineLayer, 7⟩, ⟨options.layer labelLayer, 8⟩].foldl library.declare
    library.layers

/-- The drawing of some boards. -/
def ofBoards : Drawing where
  units := options.units
  layers := layersFor library options
  entities := (Outline.layout options.spacing boards).flatMap fun (board, points) =>
    entitiesOf options board points

/-- The drawing of some boards, if its layers may have their names. -/
def drawBy : Except Fault Drawing :=
  match [options.layer outlineLayer, options.layer labelLayer].find? (!library.isName ·) with
  | some name => .error (.notAName name)
  | none => .ok (ofBoards library options boards)

end Library
end Drawing
end Joinery
