import Joinery.Yaml.Phrase

/-!
# Paragraphs of YAML documents

A paragraph is the text of a scalar in lines of its own, which stand further to the
right than what is around them. It is literal and keeps the ends of its lines, or
folded and joins its lines by spaces.
-/

namespace Joinery
namespace Yaml

/-- What becomes of the ends of lines at the end of a paragraph. -/
inductive Tail
  /-- None stays. -/
  | strip
  /-- One stays. -/
  | clip
  /-- All stay. -/
  | keep
  deriving DecidableEq

/-- Options of a paragraph. -/
structure ParagraphHeader where
  tail : Tail
  /-- Columns by which the lines are indented, if that is not seen from them. -/
  indent : Option Nat
  deriving DecidableEq

namespace Source

/-- What a sign says about the tail of a paragraph. -/
def tail? : Char → Option Tail
  | '+' => some .keep
  | '-' => some .strip
  | _ => none

/-- The digit for an indent, which is not zero. -/
def indentDigit? (source : Source) : Except Fault (Option Nat) :=
  if !(first source).isDigit then .ok none
  else if startsWith '0' source then .error (.token .badBlockHeader)
  else .ok (some ((first source).toNat - 48))

/-- The options of a paragraph: a sign and a digit in any order. -/
def paragraphOptions (source : Source) : Except Fault (ParagraphHeader × Source) := do
  match tail? (first source) with
  | some tail =>
      let indent ← indentDigit? (source.drop 1)
      return (⟨tail, indent⟩, source.drop (if indent.isSome then 2 else 1))
  | none =>
      let indent ← indentDigit? source
      let behind := source.drop (if indent.isSome then 1 else 0)
      match indent, tail? (first behind) with
      | some _, some tail => return (⟨tail, indent⟩, behind.drop 1)
      | _, _ => return (⟨.clip, indent⟩, behind)

/-- The options of a paragraph, and the source behind their line. -/
def paragraphHeader (source : Source) : Except Fault (ParagraphHeader × Source) := do
  let (header, behind) ← paragraphOptions source
  if !endsWord (first behind) then throw (.token .badBlockHeader)
  match skipLine? behind with
  | some next => return (header, next)
  | none => throw (.token .badBlockHeader)

/-- Ends of lines and spaces before the first line of a paragraph, and the largest
column that the spaces reach. -/
def paragraphStart : Source → Text × Nat × Source
  | [] => ([], 0, [])
  | mark :: rest =>
      let (breaks, column, behind) := paragraphStart rest
      if mark.character == ' ' then (breaks, max (mark.column + 1) column, behind)
      else if isBreak mark.character then
        (breakText mark.character :: breaks, column, behind)
      else ([], 0, mark :: rest)

/-- Ends of lines before the next line of a paragraph, and the source at its
column. -/
def paragraphBreaks (column : Nat) : Source → Text × Source
  | [] => ([], [])
  | mark :: rest =>
      if mark.character == ' ' && mark.column < column then paragraphBreaks column rest
      else if isBreak mark.character then
        let (breaks, behind) := paragraphBreaks column rest
        (breakText mark.character :: breaks, behind)
      else ([], mark :: rest)

/-- Whether a line of a paragraph starts here. -/
def startsLine (column : Nat) (source : Source) : Bool :=
  (place source).column == column && first source != ending

/-- What the end of a line becomes in front of the next line: a space or nothing if
it is folded, which it is between lines that start with no blank. -/
def lineJoint (isFolded : Bool) (line next : Source) (lineEnd further : Text) : Text :=
  if isFolded && lineEnd == ['\n'] && first line ∉ [' ', '\t'] && first next ∉ [' ', '\t'] then
    if further = [] then [' '] else []
  else lineEnd

/-- The lines of a paragraph, with the end of the last line, the further ones behind
it and the source behind them. -/
def paragraphLines (isFolded : Bool) (column : Nat) :
    (count : Nat) → (breaks : Text) → Source → Text × Text × Text × Source
  | 0, breaks, source => ([], [], breaks, source)
  | count + 1, breaks, source =>
      if !startsLine column source then ([], [], breaks, source)
      else
        let line := source.takeWhile (!endsLine ·.character)
        let behind := source.drop line.length
        let lineEnd := if isBreak (first behind) then [breakText (first behind)] else []
        let (further, next) := paragraphBreaks column (skipBreak behind)
        if startsLine column next then
          let (lines, last) := paragraphLines isFolded column count further next
          (breaks ++ text line ++ lineJoint isFolded source next lineEnd further ++ lines, last)
        else (breaks ++ text line, lineEnd, further, next)

/-- The paragraph whose indicator starts here, inside of a block at a column. -/
def paragraph (outer : Int) (source : Source) : Except Fault Phrase := do
  let isFolded := startsWith '>' source
  let (header, first) ← paragraphHeader (source.drop 1)
  let least := (max (outer + 1) 1).toNat
  let (breaks, column, start) :=
    match header.indent with
    | some indent =>
        let column := least + indent - 1
        let (breaks, start) := paragraphBreaks column first
        (breaks, column, start)
    | none =>
        let (breaks, column, start) := paragraphStart first
        (breaks, max least column, start)
  let (lines, lineEnd, further, behind) :=
    paragraphLines isFolded column source.length breaks start
  let tail := match header.tail with
    | .strip => []
    | .clip => lineEnd
    | .keep => lineEnd ++ further
  return ⟨lines ++ tail, behind, true⟩

end Source
end Yaml
end Joinery
