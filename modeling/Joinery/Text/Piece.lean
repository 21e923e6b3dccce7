import Joinery.Text.Basic

/-!
# Pieces of a text

A reader looks at one character and the text behind it, and may recognise a piece
that starts there. `pieces` walks over a text from left to right, takes every
piece that the reader recognises, and goes on behind it. Nothing is lost on the
way: `flatMap_text_pieces` puts the text together again.
-/

namespace Joinery
namespace Text

/-- Recognises a piece that starts with a character. The number counts the further
characters of the piece. -/
abbrev Reader (α : Type) := Char → Text → Option (α × Nat)

/-- A part of a text. -/
inductive Piece (α : Type)
  /-- A character at which no piece starts. -/
  | other (character : Char)
  /-- A recognised piece with its characters. -/
  | found (value : α) (text : Text)

namespace Piece

/-- Characters of a part of a text. -/
def text : Piece α → Text
  | .other character => [character]
  | .found _ text => text

end Piece

/-- Pieces of a text behind its first `skip` characters. -/
def piecesAfter (read : Reader α) : Nat → Text → List (Piece α)
  | _, [] => []
  | skip + 1, _ :: rest => piecesAfter read skip rest
  | 0, character :: rest =>
      match read character rest with
      | none => .other character :: piecesAfter read 0 rest
      | some (value, count) =>
          .found value (character :: rest.take count) :: piecesAfter read count rest

/-- The pieces that a reader recognises, and the characters between them. -/
def pieces (read : Reader α) (text : Text) : List (Piece α) := piecesAfter read 0 text

theorem flatMap_text_piecesAfter (read : Reader α) (skip : Nat) (text : Text) :
    (piecesAfter read skip text).flatMap Piece.text = text.drop skip := by
  induction text generalizing skip with
  | nil => cases skip <;> rfl
  | cons character rest inductionHypothesis =>
      cases skip with
      | succ skip => exact inductionHypothesis skip
      | zero =>
          unfold piecesAfter
          split
          · simp [Piece.text, inductionHypothesis]
          · simp [Piece.text, inductionHypothesis]

/-- The characters of the pieces are the text. -/
@[simp] theorem flatMap_text_pieces (read : Reader α) (text : Text) :
    (pieces read text).flatMap Piece.text = text :=
  flatMap_text_piecesAfter read 0 text

/-- The values of the recognised pieces. -/
def found (read : Reader α) (text : Text) : List α :=
  (pieces read text).filterMap fun
    | .other _ => none
    | .found value _ => some value

/-- The text with every recognised piece replaced by what is written for it. The
first piece that cannot be written decides the error. -/
def replace (write : α → Except ε Text) : List (Piece α) → Except ε Text
  | [] => .ok []
  | .other character :: rest => do return character :: (← replace write rest)
  | .found value _ :: rest => do
      let written ← write value
      return written ++ (← replace write rest)

end Text
end Joinery
