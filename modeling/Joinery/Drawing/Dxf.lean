import Joinery.Drawing.Library
import Joinery.Binary64.Decimal

/-!
# DXF text of drawings

A DXF file is a row of groups, each a numeric code and a value on lines of their
own. Sections hold the header, the layers, and the entities of the drawing.
-/

namespace Joinery
namespace Drawing

/-- A code and its value. -/
structure Group where
  code : Nat
  value : Text
  deriving DecidableEq

namespace Group

/-- A group with a fixed value. -/
def word (code : Nat) (value : String) : Group := ⟨code, value.toList⟩

/-- A group with a natural number. -/
def count (code number : Nat) : Group := ⟨code, Text.ofNat number⟩

/-- A group with a number. -/
def number (code : Nat) (value : Binary64) : Group := ⟨code, value.text⟩

/-- The two lines of a group. -/
def text (group : Group) : Text :=
  (Text.ofNat group.code).leftpad 3 ' ' ++ '\n' :: group.value ++ ['\n']

end Group

/-- A named section around some groups. -/
def dxfSection (name : String) (groups : List Group) : List Group :=
  .word 0 "SECTION" :: .word 2 name :: groups ++ [.word 0 "ENDSEC"]

/-- Groups of the header. -/
def headerGroups (drawing : Drawing) : List Group :=
  [.word 9 "$ACADVER", .word 1 version, .word 9 "$DWGCODEPAGE", .word 3 "ANSI_1252",
    .word 9 "$INSUNITS", .count 70 drawing.units.code]

/-- Groups of a layer. -/
def layerGroups (layer : Layer) : List Group :=
  [.word 0 "LAYER", .word 100 "AcDbSymbolTableRecord", .word 100 "AcDbLayerTableRecord",
    ⟨2, layer.name⟩, .count 70 0, .count 62 layer.color, .word 6 "Continuous"]

/-- Groups of the layer table. -/
def tableGroups (drawing : Drawing) : List Group :=
  [.word 0 "TABLE", .word 2 "LAYER", .count 70 drawing.layers.length] ++
    drawing.layers.flatMap layerGroups ++ [.word 0 "ENDTAB"]

/-- Groups of an entity. -/
def entityGroups : Entity → List Group
  | .polyline layer isClosed points =>
      [.word 0 "LWPOLYLINE", .word 100 "AcDbEntity", ⟨8, layer⟩, .word 100 "AcDbPolyline",
        .count 90 points.length, .count 70 (if isClosed then 1 else 0)] ++
        points.flatMap fun point => [.number 10 point.x, .number 20 point.y]
  | .label layer text height position =>
      [.word 0 "TEXT", .word 100 "AcDbEntity", ⟨8, layer⟩, .word 100 "AcDbText",
        .number 10 position.x, .number 20 position.y, .number 30 0, .number 40 height,
        ⟨1, text⟩, .word 100 "AcDbText"]

/-- Groups of a drawing. -/
def groups (drawing : Drawing) : List Group :=
  dxfSection "HEADER" drawing.headerGroups ++ dxfSection "TABLES" drawing.tableGroups ++
    dxfSection "ENTITIES" (drawing.entities.flatMap entityGroups) ++ [.word 0 "EOF"]

/-- Text of a DXF file. -/
def dxf (drawing : Drawing) : Text := drawing.stored.groups.flatMap Group.text

end Drawing
end Joinery
