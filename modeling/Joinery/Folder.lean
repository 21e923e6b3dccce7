import Joinery.Path

/-!
# Folders

Programs read and write files of a folder. Files are known by their places and
contents. A file cannot be written over a folder, or below a file.
-/

namespace Joinery

/-- What a program may find: files with their contents, and folders inside of the
current one. All of them are given by their places. -/
structure Folder where
  files : List (Text × Text)
  folders : List Text

/-- Why a file cannot be written. -/
inductive Obstacle
  /-- There is a folder at its place. -/
  | isFolder
  /-- Its folder does not exist. -/
  | noFolder
  /-- Its folder cannot be made, because there is a file at its place. -/
  | isFile
  /-- A file stands where a folder should be. -/
  | belowFile
  deriving DecidableEq

namespace Folder

/-- The folder with some files more, which take the place of others. -/
def withFiles (folder : Folder) (files : List (Text × Text)) : Folder :=
  { folder with files := files ++ folder.files }

/-- Whether a path leads to a file. -/
def hasFile (folder : Folder) (path : Text) : Bool :=
  folder.files.any (·.1 = Path.place path)

/-- Whether a path leads to a folder. -/
def hasFolder (folder : Folder) (path : Text) : Bool :=
  (Path.names (Path.place path)).all (· = Path.above) ||
    folder.folders.contains (Path.place path)

/-- The content of a file, if there are folders all along its path. -/
def content? (folder : Folder) (path : Text) : Option Text :=
  if path.getLast? ≠ some '/' ∧ (Path.ancestors path).all folder.hasFolder then
    (folder.files.find? (·.1 = Path.place path)).map (·.2)
  else none

/-- Why the folder of a file cannot be made. -/
def parentObstacle? (folder : Folder) (path : Text) : Option Obstacle :=
  if folder.hasFile (Path.parent path) then some .isFile
  else if (Path.ancestors path).any folder.hasFile then some .belowFile
  else none

/-- Why a file cannot be written into a folder that exists. -/
def targetObstacle? (folder : Folder) (path : Text) : Option Obstacle :=
  if folder.hasFolder path then some .isFolder else none

/-- Why a file cannot be written at the place of a path, where no folder is made for
it. -/
def obstacle? (folder : Folder) (path : Text) : Option Obstacle :=
  if folder.hasFolder path then some .isFolder
  else if (Path.ancestors (Path.place path)).any folder.hasFile then some .belowFile
  else if folder.hasFolder (Path.parent (Path.place path)) then none
  else some .noFolder

end Folder
end Joinery
