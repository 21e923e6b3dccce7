import Joinery.Drawing
import Joinery.Text.CodePage

/-!
# The library of drawings

The library that the program runs with. Its names of layers differ in more than
capitals, a label is of one line and has a positive height, and a file has the
characters of one code page only.
-/

namespace Joinery

namespace Layer

/-- Characters that no name of a layer may have. -/
def forbidden : List Char :=
  ['<', '>', '/', '\\', '"', ':', ';', '?', '*', '=', Char.ofNat 0x60]

/-- A name without the marks, with a given letter, in front of escaped characters. -/
def withoutMarks (letter : Char) : Text → Text
  | '\\' :: second :: '+' :: rest =>
      if second = letter then withoutMarks letter rest
      else '\\' :: withoutMarks letter (second :: '+' :: rest)
  | character :: rest => character :: withoutMarks letter rest
  | [] => []

/-- Whether a text may be the name of a layer. A star in front makes it the name of a
special layer, which may have all characters. -/
def isName (text : Text) : Bool :=
  text.head? == some '*' ||
    (withoutMarks 'M' (withoutMarks 'U' text)).all (· ∉ forbidden)

/-- The layers that every drawing has. -/
def always : List Layer := [⟨"0".toList, 7⟩, ⟨"Defpoints".toList, 7⟩]

end Layer

namespace Drawing

/-- Text of a label: one line that does not end with a circumflex. -/
def labelText (name : Text) : Text :=
  Text.dropEndWhile (· == '^')
    (name.filter fun character => character != '\n' && character != '\r')

/-- Height of a label that is not positive. -/
def leastLabelHeight : Binary64 := 5 / 2

/-- Height of a label. -/
def labelHeight (height : Binary64) : Binary64 :=
  if 0 < height then height else leastLabelHeight

/-- An entity as a file has it. -/
def storedEntity : Entity → Entity
  | .polyline layer isClosed points =>
      .polyline (Text.escapeOutsideCodePage layer) isClosed points
  | .label layer text height position =>
      .label (Text.escapeOutsideCodePage layer) (Text.escapeOutsideCodePage (labelText text))
        (labelHeight height) position

/-- The drawing as a file has it. -/
def stored (drawing : Drawing) : Drawing where
  units := drawing.units
  layers := drawing.layers.map fun layer =>
    ⟨Text.escapeOutsideCodePage layer.name, layer.color⟩
  entities := drawing.entities.map storedEntity

/-- Whether the names of all layers are of one line each, so that a stored drawing can
be read again. -/
def isReadable (drawing : Drawing) : Bool :=
  drawing.layers.all fun layer => layer.name.all fun character => character ∉ ['\n', '\r']

/-- The library that the program runs with. -/
def library : Library where
  isName := Layer.isName
  isSameName first second := Text.lower first == Text.lower second
  layers := Layer.always
  stored? drawing := if drawing.isReadable then some drawing.stored else none

/-- The drawing of some boards, if the library lets its layers have their names. -/
def draw (options : ExportOptions) (boards : List (Board Binary64)) : Except Fault Drawing :=
  drawBy library options boards

end Drawing
end Joinery
