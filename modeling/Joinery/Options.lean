import Joinery.Keyword
import Joinery.Coordinate
import Joinery.Expression
import Joinery.Palette

/-!
# Options of a board

Behind the name of a board stand its position, cuts, view and colour, each started
by a keyword. A number sign with white space around it starts a comment.
-/

namespace Joinery
namespace Options

/-- Keywords that start the options behind a position. -/
def behindPosition : List Text := ["cut".toList, "view".toList, "color".toList]

/-- Keywords that start the options behind the end of a segment. -/
def behindSegment : List Text := "z".toList :: behindPosition

/-- Keywords that start the options behind cuts. -/
def behindCuts : List Text := ["view".toList, "color".toList]

/-- Keywords that start the options behind a view. -/
def behindView : List Text := ["color".toList]

/-- Whether a comment starts with a character, when it stands behind white space or
at the start. -/
def startsComment (character : Char) (rest : Text) : Bool :=
  character == '#' && (rest.head?.map Text.isBlank).getD false

/-- A text without its comment, where `isFree` says that white space or nothing
stands before it. -/
def withoutCommentAfter (isFree : Bool) : Text → Text
  | [] => []
  | character :: rest =>
      if isFree && startsComment character rest then []
      else character :: withoutCommentAfter (Text.isBlank character) rest

/-- A text without its comment and without white space around it. -/
def withoutComment (text : Text) : Text := Text.strip (withoutCommentAfter true text)

/-! ## Position -/

/-- Where a board is. -/
inductive Position
  | unset
  | point (x y z : Binary64)
  | segment (x1 y1 x2 y2 : Binary64)

/-- Reads the three coordinates of a point. -/
def readPoint (scope : Scope) (text : Text) : Except Cause Position :=
  match splitCoordinates text with
  | [x, y, z] => do
      let x ← evaluate scope x
      let y ← evaluate scope y
      let z ← evaluate scope z
      return .point x y z
  | _ => .error .positionCount

/-- Reads the two ends of a segment, and gives the text behind them. -/
def readSegment (scope : Scope) (text : Text) : Except Cause (Position × Text) :=
  match Keyword.find? text "to".toList with
  | none => .error .missingEnd
  | some position =>
      match splitCoordinates (Text.strip (text.take position)) with
      | [x1, y1] =>
          let (last, rest) :=
            Keyword.takeSection (Text.strip (text.drop (position + 2))) behindSegment
          match splitCoordinates last with
          | [x2, y2] => do
              let x1 ← evaluate scope x1
              let y1 ← evaluate scope y1
              let x2 ← evaluate scope x2
              let y2 ← evaluate scope y2
              return (.segment x1 y1 x2 y2, rest)
          | _ => .error .endCount
      | _ => .error .startCount

/-- Reads the position of a board, and gives the options behind it. A segment
counts before a point. -/
def readPosition (scope : Scope) (options : Text) : Except Cause (Position × Text) :=
  match Keyword.behind? options "from".toList, Keyword.behind? options "at".toList with
  | some text, _ => readSegment scope text
  | none, some text => do
      let (point, rest) := Keyword.takeSection (Text.strip text) behindPosition
      return (← readPoint scope point, rest)
  | none, none => .ok (.unset, options)

/-- Reads the level of a segment, if its keyword comes first. -/
def readLevel (scope : Scope) (options : Text) : Except Cause (Option Binary64 × Text) :=
  if Keyword.find? options "z".toList = some 0 then do
    let (level, rest) := Keyword.takeSection (Text.strip (options.drop 1)) behindPosition
    return (some (← evaluate scope level), rest)
  else .ok (none, options)

/-! ## Cuts -/

/-- Whether a character stands for a small letter when case does not count. -/
def matchesLetter (letter character : Char) : Bool :=
  character.toLower == letter ||
    (letter == 'i' && (character == 'İ' || character == 'ı'))

/-- Whether a word is a name when case does not count. -/
def matchesName : (name word : Text) → Bool
  | [], [] => true
  | letter :: name, character :: word =>
      matchesLetter letter character && matchesName name word
  | _, _ => false

/-- A word of a cut section. -/
inductive CutWord
  /-- A side and the text of its length. The side is missing if the word only looks
  like its name. -/
  | cut (side : Option Side) (length : Text)
  /-- A word that is no side or has no length. -/
  | unrelated

/-- Reads a whole word, and the length behind it if it is a side. -/
def readCut : Text.Reader CutWord := fun character rest =>
  let word := character :: rest.takeWhile Text.isWordCharacter
  let blanks := (rest.drop (word.length - 1)).takeWhile Text.isBlank
  let length :=
    (rest.drop (word.length - 1 + blanks.length)).takeWhile (!Text.isBlank ·)
  if !Text.isWordCharacter character then none
  else if blanks ≠ [] ∧ length ≠ [] ∧ Side.all.any (matchesName ·.name.toList word) then
    some (.cut (Side.all.find? (·.name.toList = Text.lower word)) length,
      word.length - 1 + blanks.length + length.length)
  else some (.unrelated, word.length - 1)

/-- Lengths of the sides of a section, in the order of the text. -/
def readLengths (scope : Scope) :
    List CutWord → Except Cause (List (Option Side × Binary64))
  | [] => .ok []
  | .unrelated :: rest => readLengths scope rest
  | .cut side length :: rest => do
      let value ← evaluate scope length
      return (side, value) :: (← readLengths scope rest)

/-- Cuts from lengths of sides; the last length of a side counts. -/
def combineCuts : Cuts Binary64 → List (Option Side × Binary64) → Except Cause (Cuts Binary64)
  | cuts, [] => .ok cuts
  | cuts, (some side, length) :: rest => combineCuts (cuts.set length side) rest
  | _, (none, _) :: _ => .error .unknownSide

/-- Reads a cut section. All lengths are read before a side is refused. -/
def readCuts (scope : Scope) (text : Text) : Except Cause (Cuts Binary64) := do
  match ← readLengths scope (Text.found readCut text) with
  | [] => .error .noCut
  | lengths => combineCuts .none lengths

/-- Reads the cuts of a board, and gives the options behind them. -/
def takeCuts (scope : Scope) (options : Text) :
    Except Cause (Option (Cuts Binary64) × Text) :=
  match Keyword.behind? options "cut".toList with
  | none => .ok (none, options)
  | some text => do
      let (cuts, rest) := Keyword.takeSection (Text.strip text) behindCuts
      return (some (← readCuts scope cuts), rest)

/-! ## View and colour -/

/-- Letters of the faces that a view can show. -/
def faceLetters : Text := ['f', 's', 't']

/-- Letters of a view without repetitions, behind the letters that it has already. -/
def viewAfter (view : Text) : Text → Except Cause Text
  | [] => if view = [] then .error .noFace else .ok view
  | letter :: rest =>
      if letter ∉ faceLetters then .error (.unknownFace letter)
      else viewAfter (if letter ∈ view then view else view ++ [letter]) rest

/-- A view in small letters, where every face keeps its first place. -/
def normalizeView (view : Text) : Except Cause Text := viewAfter [] (Text.lower view)

/-- Reads the view of a board, and gives the options behind it. -/
def takeView (options : Text) : Except Cause (Option Text × Text) :=
  match Keyword.behind? options "view".toList with
  | none => .ok (none, options)
  | some text => do
      let (view, rest) := Keyword.takeSection (Text.strip text) behindView
      return (some (← normalizeView view), rest)

/-- The colour of a board, if it has one. -/
def color? (options : Text) : Option Text :=
  (Keyword.behind? options "color".toList).bind fun text =>
    Palette.readColor? (Text.strip text)

end Options
end Joinery
