import Joinery.Yaml.Meaning
import Joinery.Text.Lower

/-!
# Options of an export

An export has a unit of length, a space between outlines, a height of labels, and
new names for layers. They come from a YAML mapping, in which all of them may be
missing. The library that reads YAML is a parameter.
-/

namespace Joinery

/-- Units of length. -/
inductive LengthUnit
  | millimetres
  | inches
  | unitless
  deriving DecidableEq

namespace LengthUnit

/-- The units in the order in which they are listed. -/
def all : List LengthUnit := [.millimetres, .inches, .unitless]

/-- Name of a unit. -/
def name : LengthUnit → String
  | .millimetres => "mm"
  | .inches => "in"
  | .unitless => "unitless"

/-- The unit with a name. -/
def ofName? (name : Text) : Option LengthUnit := all.find? fun units => units.name.toList = name

end LengthUnit

/-- Options of an export. -/
structure ExportOptions where
  units : LengthUnit
  spacing : Binary64
  labelHeight : Binary64
  /-- Layers with their new names, the latest first. -/
  renames : List (Text × Text)
  deriving DecidableEq

namespace ExportOptions

/-- The options of an export that is told nothing. -/
def default : ExportOptions := ⟨.millimetres, 50, 20, []⟩

/-- The name under which a layer is exported. -/
def layer (options : ExportOptions) (name : Text) : Text :=
  ((options.renames.find? (·.1 = name)).map (·.2)).getD name

/-- What is wrong with options. -/
inductive Fault
  /-- The text is no document. -/
  | unreadable (fault : Yaml.Fault)
  /-- The document is no mapping. -/
  | notAMapping
  | unknownUnits
  /-- A text where a number is expected. -/
  | notANumeral
  /-- A value that cannot be a number where one is expected. -/
  | notANumber
  /-- An integer that is larger than all numbers. -/
  | tooLarge
  /-- A name with an integer that is too long to be written. -/
  | tooLong
  /-- The layers are no mapping. -/
  | layersNotAMapping
  deriving DecidableEq

/-- Wording of a fault in the options of a file. -/
def Fault.message (path : Text) : Fault → String
  | .unreadable _ => String.ofList path ++ ": not a YAML document"
  | .notAMapping => String.ofList path ++ ": options must be a mapping"
  | .unknownUnits =>
      String.ofList path ++ ": units must be one of " ++
        ", ".intercalate (LengthUnit.all.map LengthUnit.name)
  | .notANumeral | .notANumber => String.ofList path ++ ": not a number"
  | .tooLarge | .tooLong => String.ofList path ++ ": number too large"
  | .layersNotAMapping => String.ofList path ++ ": layers must be a mapping"

/-- A text as a number. -/
def readNumeral (text : Text) : Except Fault Binary64 :=
  match Binary64.ofText? text with
  | some number => .ok number
  | none => .error .notANumeral

/-- A value as a number. Truth is one, and a text or bytes may write a number. -/
def readNumber (document : Yaml.Document) (number : Nat) : Except Fault Binary64 :=
  match document.value number with
  | .number value => .ok value
  | .truth value => .ok (if value then 1 else 0)
  | .integer value =>
      match Binary64.ofIntQuotient value 1 with
      | .infinite _ => .error .tooLarge
      | number => .ok number
  | .text text => readNumeral text
  | .bytes bytes =>
      if bytes.all (· < 128) then readNumeral (bytes.map Char.ofNat) else .error .notANumeral
  | _ => .error .notANumber

/-- A value as a name. -/
def readName (document : Yaml.Document) (number : Nat) : Except Fault Text :=
  match document.name? number with
  | some name => .ok name
  | none => .error .tooLong

/-- A value as units. -/
def readUnits (document : Yaml.Document) (number : Nat) : Except Fault LengthUnit := do
  match LengthUnit.ofName? (Text.lower (← readName document number)) with
  | some units => return units
  | none => throw .unknownUnits

/-- A value as new names of layers. -/
def readRenames (document : Yaml.Document) (number : Nat) : Except Fault (List (Text × Text)) :=
  if (document.value number).isEmpty then .ok []
  else match document.value number with
    | .mapping entries => do
        let renames ← entries.mapM fun (key, value) => do
          return (← readName document key, ← readName document value)
        return renames.reverse
    | _ => .error .layersNotAMapping

/-- The value of an entry, if the mapping has it. -/
def orElse (document : Yaml.Document) (entries : List (Nat × Nat)) (key : String)
    (read : Yaml.Document → Nat → Except Fault α) (missing : α) : Except Fault α :=
  match document.entry? entries key.toList with
  | some number => read document number
  | none => .ok missing

/-- The options in the entries of a mapping. -/
def ofEntries (document : Yaml.Document) (entries : List (Nat × Nat)) :
    Except Fault ExportOptions := do
  let units ← orElse document entries "units" readUnits default.units
  let spacing ← orElse document entries "spacing" readNumber default.spacing
  let labelHeight ← orElse document entries "label_height" readNumber default.labelHeight
  let renames ← orElse document entries "layers" readRenames default.renames
  return ⟨units, spacing, labelHeight, renames⟩

/-- The options in a document. A document that stands for nothing has none. -/
def ofDocument (document : Yaml.Document) : Except Fault ExportOptions :=
  if (document.value document.root).isEmpty then .ok default
  else match document.value document.root with
    | .mapping entries => ofEntries document entries
    | _ => .error .notAMapping

/-- Reads options with a library. -/
def readBy (library : Yaml.Library) (text : Text) : Except Fault ExportOptions :=
  match library.load text with
  | .ok document => ofDocument document
  | .error fault => .error (.unreadable fault)

/-- Reads options. -/
def read (text : Text) : Except Fault ExportOptions := readBy Yaml.library text

end ExportOptions
end Joinery
