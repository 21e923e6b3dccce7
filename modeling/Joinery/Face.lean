import Joinery.Board

/-!
# Faces

A list view of a board shows some of its faces. A board without a view of its own
shows the two faces with the largest areas.
-/

namespace Joinery

/-- A face of a board. -/
inductive Face
  | front
  | side
  | top
  deriving DecidableEq

namespace Face

/-- Letter of a face in a view. -/
def letter : Face → Char
  | .front => 'f'
  | .side => 's'
  | .top => 't'

/-- Name of a face. -/
def name : Face → String
  | .front => "front"
  | .side => "side"
  | .top => "top"

/-- The face with a letter. -/
def ofLetter? : Char → Option Face
  | 'f' => some .front
  | 's' => some .side
  | 't' => some .top
  | _ => none

@[simp] theorem ofLetter?_letter (face : Face) : ofLetter? face.letter = some face := by
  cases face <;> rfl

end Face

/-- The larger sides of a face as they are shown. -/
structure FaceSize (α : Type) where
  width : α
  height : α
  deriving DecidableEq

namespace Board

variable {α : Type}

/-- Width and height of a face. -/
def faceSize (board : Board α) : Face → FaceSize α
  | .front => ⟨board.width, board.height⟩
  | .side => ⟨board.depth, board.height⟩
  | .top => ⟨board.width, board.depth⟩

/-- Width and height of the first face of the view, which is the front face if the
view is missing or its first letter is no face. -/
def listSize (board : Board α) : FaceSize α :=
  board.faceSize (((board.view.bind List.head?).bind Face.ofLetter?).getD .front)

/-- Area of a face. -/
def faceArea [Mul α] (board : Board α) (face : Face) : α :=
  (board.faceSize face).width * (board.faceSize face).height

/-- The faces from the largest to the smallest area. Of equal areas the front comes
first and the top last. -/
def rankedFaces [Mul α] [LT α] [DecidableLT α] (board : Board α) : List Face :=
  if board.faceArea .side < board.faceArea .top then
    if board.faceArea .front < board.faceArea .side then [.top, .side, .front]
    else if board.faceArea .front < board.faceArea .top then [.top, .front, .side]
    else [.front, .top, .side]
  else if board.faceArea .front < board.faceArea .side then
    if board.faceArea .front < board.faceArea .top then [.side, .top, .front]
    else [.side, .front, .top]
  else [.front, .side, .top]

/-- The two faces with the largest areas. -/
def dominantFaces [Mul α] [LT α] [DecidableLT α] (board : Board α) : List Face :=
  board.rankedFaces.take 2

/-- Letters of the faces to be shown. -/
def shownLetters [Mul α] [LT α] [DecidableLT α] (board : Board α) : Text :=
  match board.view with
  | some (letter :: rest) => letter :: rest
  | _ => board.dominantFaces.map Face.letter

/-- The faces to be shown, if every letter is one. -/
def shownFaces? [Mul α] [LT α] [DecidableLT α] (board : Board α) : Option (List Face) :=
  board.shownLetters.mapM Face.ofLetter?

end Board
end Joinery
