import Joinery.Text.Basic

/-!
# Paths

A path is a row of names with slashes between them. Empty names and single dots mean
nothing, and a path without any name is the current folder. Two dots lead to the folder
above, so that paths with other names may lead to one place.
-/

namespace Joinery
namespace Path

/-- Path of the current folder. -/
def here : Text := ['.']

/-- Name of the folder above. -/
def above : Text := ['.', '.']

/-- The names of a path. -/
def names (path : Text) : List Text :=
  (path.splitOn '/').filter fun name => name ≠ [] ∧ name ≠ here

/-- The path with some names, from the root or from the current folder. -/
def ofNames (isAbsolute : Bool) (names : List Text) : Text :=
  let joined := ['/'].intercalate names
  if isAbsolute then '/' :: joined else if joined = [] then here else joined

/-- Whether a path starts at the root. -/
def isAbsolute (path : Text) : Bool := path.head? == some '/'

/-- The path without names that mean nothing. -/
def normal (path : Text) : Text := ofNames (isAbsolute path) (names path)

/-- One step from a place, whose names are given with the last in front: the name of
the folder above takes a name back, and nothing lies above the root. -/
def step (isAbsolute : Bool) (place : List Text) (name : Text) : List Text :=
  if name ≠ above then name :: place
  else match place with
    | [] => if isAbsolute then [] else [above]
    | last :: rest => if last = above then above :: place else rest

/-- The place that a path leads to, as a path that only goes up at its start. -/
def place (path : Text) : Text :=
  ofNames (isAbsolute path) ((names path).foldl (step (isAbsolute path)) []).reverse

/-- The folder that holds a path. -/
def parent (path : Text) : Text := ofNames (isAbsolute path) (names path).dropLast

/-- The folders above a path, the nearest first. -/
def ancestors (path : Text) : List Text :=
  (List.range (names path).length).reverse.map fun count =>
    ofNames (isAbsolute path) ((names path).take count)

end Path
end Joinery
