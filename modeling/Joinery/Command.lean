import Joinery.Text.Blank
import Joinery.Text.Basic

/-!
# Commands

A design is a text of lines. A line is blank or a comment, a continuation of the
board command above it, or the head of a command. Continuations are indented and
follow a board command or another continuation without a gap; their text is joined
to the head by single spaces.
-/

namespace Joinery

/-- Kinds of commands. -/
inductive Command.Kind
  | definition
  | board
  | unknown
  deriving DecidableEq

/-- A command with the number of its first line. -/
structure Command where
  line : Nat
  kind : Command.Kind
  text : Text
  deriving DecidableEq

namespace Command

/-- Whether a text starts with a word of small ASCII letters, in any case. -/
def startsWith : (word : Text) → Text → Bool
  | [], _ => true
  | _ :: _, [] => false
  | letter :: word, character :: text =>
      character.toLower == letter && startsWith word text

/-- The word that starts a board command. -/
def boardWord : Text := "board".toList

/-- Whether a line without white space around it holds no command. -/
def isSilent : Text → Bool
  | [] => true
  | '#' :: _ => true
  | '/' :: '/' :: _ => true
  | _ => false

/-- Whether a line starts with a space or a tab. -/
def isIndented : Text → Bool
  | ' ' :: _ => true
  | '\t' :: _ => true
  | _ => false

/-- Kind of the command that a line without white space around it starts. -/
def kindOf (line : Text) : Kind :=
  if line.head? = some '$' then .definition
  else if startsWith boardWord line then .board
  else .unknown

/-- Lines of a text, without the line breaks between them. -/
def lines : Text → List Text
  | [] => [[]]
  | character :: rest =>
      if character = '\n' then [] :: lines rest
      else match lines rest with
        | first :: others => (character :: first) :: others
        | [] => [[character]]

/-- Continuations that a row of lines starts with, and the commands behind them.
The rest of the input is the number of the first line and whether a board command
is open. -/
def gather : (number : Nat) → (isOpen : Bool) → List Text → List Text × List Command
  | _, _, [] => ([], [])
  | number, isOpen, line :: rest =>
      let stripped := Text.strip line
      if isSilent stripped then ([], (gather (number + 1) false rest).2)
      else if isOpen && isIndented line then
        let (continuations, commands) := gather (number + 1) true rest
        (stripped :: continuations, commands)
      else
        let kind := kindOf stripped
        let (continuations, commands) := gather (number + 1) (kind = .board) rest
        ([], ⟨number, kind, [' '].intercalate (stripped :: continuations)⟩ :: commands)

end Command

/-- Commands of a text. -/
def commands (text : Text) : List Command :=
  (Command.gather 1 false (Command.lines text)).2

end Joinery
