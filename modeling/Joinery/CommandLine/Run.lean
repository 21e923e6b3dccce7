import Joinery.CommandLine.Request
import Joinery.Drawing.Library
import Joinery.Journal
import Joinery.Report
import Joinery.Text.Break

/-!
# Runs of a command line

A run reads a design, notes it in the journal, and ends with lines for the two
outputs, files to be written and a status. The status is two for a wrong command
line, and one for a run that breaks off or a check that finds something. The libraries
that a run relies on are a parameter, and `run` has those of the program.
-/

namespace Joinery
namespace CommandLine

/-- The libraries that a run relies on. -/
structure Libraries where
  yaml : Yaml.Library
  outlines : Outline.Tests
  drawings : Drawing.Library

/-- The libraries that the program runs with. -/
def libraries : Libraries := ⟨Yaml.library, Outline.tests, Drawing.library⟩

/-- Why a run breaks off. -/
inductive Abort
  | design (cause : Cause)
  | options (path : Text) (fault : ExportOptions.Fault)
  | drawing (fault : Drawing.Fault)
  | obstacle (path : Text) (obstacle : Obstacle)

/-- What is written to a file. -/
inductive Content
  | text (text : Text)
  | drawing (drawing : Drawing)

/-- How a run ends. -/
structure Outcome where
  status : Nat
  /-- Lines of the output. -/
  output : List Text
  /-- Lines of the output for errors. -/
  complaints : List Text
  journal : Journal
  /-- Places and contents of the files to be written. -/
  files : List (Text × Content)
  abort : Option Abort

namespace Outcome

/-- The outcome of a run that ends well. -/
def finished (journal : Journal) (output complaints : List Text) : Outcome :=
  ⟨0, output, complaints, journal, [], none⟩

/-- The outcome of a run that breaks off. -/
def aborted (journal : Journal) (complaints : List Text) (abort : Abort) : Outcome :=
  ⟨1, [], complaints, journal, [], some abort⟩

/-- The outcome of a run that is not asked to do anything, without the wording of the
help. -/
def stopped (journal : Journal) : Stop → Outcome
  | .misuse => ⟨2, [], [], journal, [], none⟩
  | .help => finished journal [] []

/-- The outcome with a file to be written, which may take the place of a file of the
journal. -/
def writing (outcome : Outcome) (path : Text) (content : Content) : Outcome :=
  { outcome with
    journal := outcome.journal.withoutFile (Path.place path)
    files := outcome.files ++ [(Path.place path, content)] }

end Outcome

/-- The line that tells of a file. -/
def wroteLine (path : Text) : Text := "Wrote ".toList ++ Path.normal path

/-- The line that tells of a drawing. -/
def drewLine (path : Text) (design : Design) : Text :=
  "Wrote DXF: ".toList ++ Path.normal path ++ " (".toList ++
    Design.countText design.boards.length "boards" ++ ")".toList

/-- Writes a design as a document. -/
def runParse (folder : Folder) (journal : Journal) (design : Design) :
    Option Text → Outcome
  | none => .finished journal [design.json.text] []
  | some path =>
      match (folder.parentObstacle? path).or (folder.targetObstacle? path) with
      | some obstacle => .aborted journal [] (.obstacle path obstacle)
      | none =>
          (Outcome.finished journal [wroteLine path] []).writing path (.text design.json.text)

/-- The level of the journal. -/
def journalLevel (isVerbose : Bool) : Int :=
  (if isVerbose then Severity.debug else Severity.warning).level

section Libraries

variable (libraries : Libraries)

/-- Reads the options of an export. -/
def readOptions : Option Document → Except Abort ExportOptions
  | none => .ok .default
  | some document =>
      (ExportOptions.readBy libraries.yaml document.content).mapError fun fault =>
        .options document.path fault

/-- Draws a design with the options of an export. -/
def drawDesign (design : Design) (options : Option Document) : Except Abort Drawing := do
  let options ← readOptions libraries options
  (Drawing.drawBy libraries.drawings options design.boards).mapError .drawing

/-- Counts what is wrong with a design. -/
def runCheck (journal : Journal) (design : Design) : Outcome :=
  { Outcome.finished journal [design.summaryLine libraries.outlines]
      (design.problemLines ++ design.issueLines libraries.outlines) with
    status := if design.isSound libraries.outlines then 0 else 1 }

variable (folder : Folder)

/-- Draws a design. -/
def runExport (journal : Journal) (design : Design) (path : Text) (options : Option Document) :
    Outcome :=
  let abort := Outcome.aborted journal design.problemLines
  match folder.parentObstacle? path with
  | some obstacle => abort (.obstacle path obstacle)
  | none =>
      match drawDesign libraries design options with
      | .error reason => abort reason
      | .ok drawing =>
          match folder.targetObstacle? path with
          | some obstacle => abort (.obstacle path obstacle)
          | none =>
              (Outcome.finished journal [drewLine path design] design.problemLines).writing
                path (.drawing drawing)

/-- Does what a request asks for with a design that was read. -/
def runDesign (journal : Journal) (design : Design) : Request → Outcome
  | .parse _ output => runParse folder journal design output
  | .check _ => runCheck libraries journal design
  | .project _ direction =>
      .finished journal (design.projectionLines direction) design.problemLines
  | .views _ => .finished journal design.facesLines design.problemLines
  | .exportDxf _ output options => runExport libraries folder journal design output options

/-- Reads the design of a request, and does what is asked for. -/
def runRequest (journal : Journal) (request : Request) : Outcome :=
  let (session, result) := readDesign (Text.unifyBreaks request.design.content)
  let journal := journal.follow session
  match result with
  | .error failure => .aborted journal [] (.design failure.cause)
  | .ok design => runDesign libraries folder journal design request

/-- Sets up the journal of an invocation and runs its request. -/
def runInvocation (invocation : Invocation) : Outcome :=
  let path := invocation.logFile.map Path.normal
  match Journal.new.setUpIn folder (journalLevel invocation.isVerbose) path with
  | .error obstacle => .aborted .new [] (.obstacle (path.getD []) obstacle)
  | .ok journal =>
      let folder := journal.inFolder folder
      match Request.ofArguments folder invocation.verb invocation.arguments with
      | .error stop => .stopped journal stop
      | .ok request => runRequest libraries folder journal request

/-- Runs a command line in a folder. -/
def runBy (arguments : List Text) : Outcome :=
  match Invocation.ofArguments arguments with
  | .error stop => .stopped .new stop
  | .ok invocation => runInvocation libraries folder invocation

end Libraries

/-- Runs a command line in a folder with the libraries of the program. -/
def run (folder : Folder) (arguments : List Text) : Outcome := runBy libraries folder arguments

end CommandLine
end Joinery
