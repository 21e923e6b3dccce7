import Joinery.Folder
import Joinery.Session

/-!
# Journals

A journal writes records to the console and to a file. A record has a severity, and
every writer passes over records below its level. Setting up a journal replaces its
writers and starts its file again. A journal that was never set up shows bare
warnings on the console.
-/

namespace Joinery

/-- How important a record is. -/
inductive Severity
  | debug
  | warning
  deriving DecidableEq

namespace Severity

/-- Number of a severity among the levels. -/
def level : Severity → Int
  | .debug => 10
  | .warning => 30

/-- Name of a severity. -/
def name : Severity → String
  | .debug => "DEBUG"
  | .warning => "WARNING"

end Severity

/-- Something that is written to a journal. -/
structure Record where
  /-- The part of the program that writes it. -/
  origin : String
  severity : Severity
  message : String
  deriving DecidableEq

namespace Record

/-- The line of a record. -/
def line (record : Record) : String :=
  record.origin ++ " - " ++ record.severity.name ++ " - " ++ record.message

end Record

/-- The record of an event of a session. -/
def Event.record (event : Event) : Record where
  origin := "deskdraft.dsl.dsl_parser"
  severity :=
    match event with
    | .resized _ _ _ => .warning
    | .refused _ _ | .placed _ _ _ => .debug
  message := event.message

/-- Where records are written. -/
inductive Target
  | console
  | file (path : Text)
  deriving DecidableEq

/-- Writes records from a level on. -/
structure Writer where
  target : Target
  level : Int
  deriving DecidableEq

/-- A journal with what it has written. -/
structure Journal where
  /-- Records below this level are passed over; zero is the level of a journal that
  has none of its own. -/
  level : Int
  writers : List Writer
  console : List String
  /-- Places and lines of the files. -/
  files : List (Text × List String)
  deriving DecidableEq

namespace Journal

/-- A journal that is not set up. -/
def new : Journal := ⟨0, [], [], []⟩

/-- The level from which records count. -/
def effectiveLevel (journal : Journal) : Int :=
  if journal.level = 0 then Severity.warning.level else journal.level

/-- The files with a line more in one of them. -/
def appendTo (path : Text) (line : String) (files : List (Text × List String)) :
    List (Text × List String) :=
  files.map fun file => if file.1 = path then (file.1, file.2 ++ [line]) else file

/-- The files with an empty one. -/
def restart (path : Text) (files : List (Text × List String)) : List (Text × List String) :=
  files.filter (·.1 ≠ path) ++ [(path, [])]

/-- The journal with a line more at a target. -/
def append (journal : Journal) (line : String) : Target → Journal
  | .console => { journal with console := journal.console ++ [line] }
  | .file path => { journal with files := appendTo path line journal.files }

/-- The journal after a writer got a record. -/
def offer (record : Record) (journal : Journal) (writer : Writer) : Journal :=
  if writer.level ≤ record.severity.level then journal.append record.line writer.target
  else journal

/-- The journal with a record. -/
def write (journal : Journal) (record : Record) : Journal :=
  if record.severity.level < journal.effectiveLevel then journal
  else if journal.writers.isEmpty then
    if record.severity.level < Severity.warning.level then journal
    else journal.append record.message .console
  else journal.writers.foldl (offer record) journal

/-- The journal with some records. -/
def writeAll (journal : Journal) (records : List Record) : Journal :=
  records.foldl write journal

/-- Name of a level. -/
def levelName (level : Int) : String :=
  if level = 0 then "NOTSET"
  else if level = 10 then "DEBUG"
  else if level = 20 then "INFO"
  else if level = 30 then "WARNING"
  else if level = 40 then "ERROR"
  else if level = 50 then "CRITICAL"
  else "Level " ++ String.ofList (Text.ofInt level)

/-- The record of a setup, which names the file as it was given. -/
def setupRecord (level : Int) (file : Option Text) : Record where
  origin := "deskdraft"
  severity := .debug
  message := "level " ++ levelName level ++ ", log file " ++ String.ofList (file.getD ['-'])

/-- The file that a path names; an empty path names none. -/
def file? : Option Text → Option Text
  | some (first :: rest) => some (first :: rest)
  | _ => none

/-- The writers of a journal that is set up. -/
def writersFor (level : Int) : Option Text → List Writer
  | none => [⟨.console, level⟩]
  | some path => [⟨.console, level⟩, ⟨.file (Path.place path), level⟩]

/-- The journal set up with a level and perhaps a file. -/
def setUp (journal : Journal) (level : Int) (path : Option Text) : Journal :=
  let files :=
    match file? path with
    | some path => restart (Path.place path) journal.files
    | none => journal.files
  ({ journal with level, writers := writersFor level (file? path), files } : Journal).write
    (setupRecord level (file? path))

/-- The journal without one of its files. -/
def withoutFile (journal : Journal) (place : Text) : Journal :=
  { journal with files := journal.files.filter (·.1 ≠ place) }

/-- The folder with the files of a journal. -/
def inFolder (journal : Journal) (folder : Folder) : Folder :=
  folder.withFiles <| journal.files.map fun file =>
    (file.1, file.2.flatMap fun line => line.toList ++ ['\n'])

/-- The journal set up with a level and perhaps a file, if nothing stands in the way of
the file. -/
def setUpIn (folder : Folder) (journal : Journal) (level : Int) (path : Option Text) :
    Except Obstacle Journal :=
  match (file? path).bind (journal.inFolder folder).obstacle? with
  | some obstacle => .error obstacle
  | none => .ok (journal.setUp level path)

/-- The journal with the events of a session. -/
def follow (journal : Journal) (session : Session) : Journal :=
  journal.writeAll (session.events.map Event.record)

end Journal
end Joinery
