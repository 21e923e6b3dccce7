import Joinery.CommandLine.Run
import Joinery.Drawing.Dxf

/-!
# Program

The program looks for what its arguments may mean as paths, runs the command line,
and writes what comes out of it.
-/

namespace Joinery
namespace CommandLine

/-- Places that an argument may lead to, with the folders on the way to them. -/
def placesOf (argument : Text) : List Text :=
  [argument, (argument.dropWhile (· != '=')).drop 1].flatMap fun path =>
    (path :: Path.ancestors path ++ Path.ancestors (Path.place path)).map Path.place

/-- The folder with what is found at some places. -/
def probe (places : List Text) : IO Folder := do
  let current ← IO.currentDir
  let mut folder : Folder := ⟨[], []⟩
  for place in places do
    let file := current / String.ofList place
    if ← file.isDir then
      folder := { folder with folders := place :: folder.folders }
    else if ← file.pathExists then
      folder := folder.withFiles [(place, (← IO.FS.readFile file).toList)]
  return folder

/-- Lines with a line feed behind each. -/
def joinLines (lines : List String) : String := String.join (lines.map (· ++ "\n"))

/-- Bytes of a file. -/
def Content.bytes : Content → ByteArray
  | .text content => (String.ofList content).toUTF8
  | .drawing picture => ⟨((Text.codePageBytes picture.dxf).map Nat.toUInt8).toArray⟩

/-- Why a run broke off, for the user. -/
def Abort.message : Abort → String
  | .design cause => cause.message
  | .options path fault => fault.message path
  | .drawing fault => fault.message
  | .obstacle path _ => "cannot write " ++ String.ofList path

/-- Writes what comes out of a run. -/
def Outcome.perform (outcome : Outcome) : IO Unit := do
  for (path, lines) in outcome.journal.files do
    IO.FS.writeFile (String.ofList path) (joinLines lines)
  IO.eprint (joinLines outcome.journal.console)
  IO.eprint (joinLines (outcome.complaints.map String.ofList))
  for (path, content) in outcome.files do
    IO.FS.createDirAll (String.ofList (Path.parent path))
    IO.FS.writeBinFile (String.ofList path) content.bytes
  IO.print (joinLines (outcome.output.map String.ofList))
  for abort in outcome.abort do
    IO.eprintln abort.message

end CommandLine
end Joinery

/-- Runs the command line of the program. -/
def main (arguments : List String) : IO UInt32 := do
  let texts := arguments.map String.toList
  let folder ← Joinery.CommandLine.probe (texts.flatMap Joinery.CommandLine.placesOf).eraseDups
  let outcome := Joinery.CommandLine.run folder texts
  outcome.perform
  return outcome.status.toUInt32
