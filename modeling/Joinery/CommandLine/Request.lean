import Joinery.CommandLine.Flag
import Joinery.Folder
import Joinery.Projection

/-!
# Requests

A command line has general flags, the name of a command, and the flags of that
command. A request is a command with all that it needs; the files that it reads must
exist.
-/

namespace Joinery
namespace CommandLine

/-- Why a command line asks for nothing to be done. -/
inductive Stop
  | misuse
  | help
  deriving DecidableEq

/-- Keys of all flags. -/
inductive Key
  | help
  | verbose
  | logFile
  | input
  | output
  | direction
  | options
  deriving DecidableEq

/-- Names of commands. -/
inductive Verb
  | parse
  | check
  | project
  | views
  | exportDxf
  deriving DecidableEq

/-- The flag that asks for help. -/
def helpFlag : Flag Key := ⟨.help, "--help".toList, none, false⟩

/-- Flags in front of the name of the command. -/
def generalFlags : List (Flag Key) :=
  [⟨.verbose, "--verbose".toList, some 'v', false⟩, ⟨.logFile, "--log-file".toList, none, true⟩,
    helpFlag]

namespace Verb

/-- The commands in the order in which they are listed. -/
def all : List Verb := [.parse, .check, .project, .views, .exportDxf]

/-- Name of a command. -/
def name : Verb → String
  | .parse => "parse"
  | .check => "check"
  | .project => "project"
  | .views => "views"
  | .exportDxf => "export-dxf"

/-- The command with a name. -/
def ofName? (name : Text) : Option Verb := all.find? fun verb => verb.name.toList = name

/-- The flag for the design. -/
def inputFlag : Flag Key := ⟨.input, "--inp".toList, none, true⟩

/-- The flag for the file that is written. -/
def outputFlag : Flag Key := ⟨.output, "--out".toList, none, true⟩

/-- Flags of a command. -/
def flags : Verb → List (Flag Key)
  | .parse => [inputFlag, outputFlag, helpFlag]
  | .check | .views => [inputFlag, helpFlag]
  | .project => [inputFlag, ⟨.direction, "--direction".toList, none, true⟩, helpFlag]
  | .exportDxf =>
      [inputFlag, outputFlag, ⟨.options, "--options".toList, none, true⟩, helpFlag]

end Verb

/-- A command with its arguments, and what is asked of the journal. -/
structure Invocation where
  isVerbose : Bool
  logFile : Option Text
  verb : Verb
  arguments : List Text

namespace Invocation

/-- The invocation of a command line. -/
def ofArguments (arguments : List Text) : Except Stop Invocation :=
  match Flag.settings? generalFlags false arguments with
  | none => .error .misuse
  | some (settings, others) =>
      if (value? settings .help).isSome then .error .help
      else match others with
        | [] => .error .misuse
        | name :: arguments =>
            match Verb.ofName? name with
            | none => .error .misuse
            | some verb =>
                .ok ⟨(value? settings .verbose).isSome, value? settings .logFile, verb,
                  arguments⟩

end Invocation

/-- A file with its content. -/
structure Document where
  path : Text
  content : Text

/-- A command with all that it needs. -/
inductive Request
  | parse (design : Document) (output : Option Text)
  | check (design : Document)
  | project (design : Document) (direction : Direction)
  | views (design : Document)
  | exportDxf (design : Document) (output : Text) (options : Option Document)

namespace Request

/-- The file with a path, if it exists. -/
def document? (folder : Folder) (path : Text) : Option Document :=
  (folder.content? path).map fun content => ⟨Path.normal path, content⟩

/-- A file that may be left out, but must exist if it is named. -/
def optionalDocument? (folder : Folder) : Option Text → Option (Option Document)
  | none => some none
  | some path => (document? folder path).map some

/-- The direction with a name, which is the front if none is given. -/
def direction? : Option Text → Option Direction
  | none => some .front
  | some name => Direction.ofName? name

/-- The request that the flags of a command make, if nothing is missing. -/
def ofSettings? (folder : Folder) (verb : Verb) (settings : List (Setting Key)) :
    Option Request := do
  let design ← document? folder (← value? settings .input)
  match verb with
  | .parse => return .parse design (value? settings .output)
  | .check => return .check design
  | .project => return .project design (← direction? (value? settings .direction))
  | .views => return .views design
  | .exportDxf =>
      return .exportDxf design (← value? settings .output)
        (← optionalDocument? folder (value? settings .options))

/-- The request of a command with its arguments. -/
def ofArguments (folder : Folder) (verb : Verb) (arguments : List Text) :
    Except Stop Request :=
  match Flag.settings? verb.flags true arguments with
  | none => .error .misuse
  | some (settings, others) =>
      if (value? settings .help).isSome then .error .help
      else if others ≠ [] then .error .misuse
      else match ofSettings? folder verb settings with
        | some request => .ok request
        | none => .error .misuse

/-- The design of a request. -/
def design : Request → Document
  | .parse design _ | .check design | .project design _ | .views design
  | .exportDxf design _ _ => design

end Request
end CommandLine
end Joinery
