import Joinery.Yaml.Source

/-!
# Phrases of YAML documents

A phrase is the text of a scalar. It stands between quotes or is plain. The end of a
line inside a phrase is a space, and more of them in a row are one line feed fewer.
-/

namespace Joinery
namespace Yaml

/-- A text that was read, and the source behind it. -/
structure Phrase where
  text : Text
  behind : Source
  /-- Whether a line ends between the text and what is behind it. -/
  endsLine : Bool

namespace Source

/-- What the end of a line becomes, and the further ones right behind it. -/
def fold (first : Char) (further : Text) : Text :=
  if first ≠ '\n' then first :: further
  else if further = [] then [' ']
  else further

/-- A character that separates or closes the parts of a bracketed collection. -/
def isBracketing (character : Char) : Bool := character ∈ [',', '[', ']', '{', '}']

/-- Whether the part of a plain phrase without blanks ends in front of a character. -/
def endsPlain (inBrackets : Bool) (character : Char) (rest : Source) : Bool :=
  isGap character ||
    (character == ':' &&
      (isGap (first rest) || (inBrackets && isBracketing (first rest)))) ||
    (inBrackets && (character == '?' || isBracketing character))

/-- Count of the characters of a plain phrase up to the next blank. -/
def plainLength (inBrackets : Bool) : Source → Nat
  | [] => 0
  | mark :: rest =>
      if endsPlain inBrackets mark.character rest then 0 else plainLength inBrackets rest + 1

/-- The part of a plain phrase without blanks. -/
def plainWord (inBrackets : Bool) (source : Source) : Text :=
  text (source.take (plainLength inBrackets source))

/-- Further ends of lines with spaces between them. There are none if the mark of a
document comes behind one. -/
def furtherBreaks : Source → Option Text × Source
  | [] => (some [], [])
  | mark :: rest =>
      if mark.character == ' ' then furtherBreaks rest
      else if isBreak mark.character then
        if startsMarker rest then (none, rest)
        else
          let (further, behind) := furtherBreaks rest
          (further.map (breakText mark.character :: ·), behind)
      else (some [], mark :: rest)

/-- What the spaces and the ends of lines behind a part of a plain phrase become. It
is nothing if the phrase ends here. -/
def plainGap (source : Source) : Phrase :=
  let spaces := source.takeWhile (·.character == ' ')
  let behind := source.drop spaces.length
  if isBreak (first behind) then
    let rest := behind.drop 1
    if startsMarker rest then ⟨[], rest, true⟩
    else match furtherBreaks rest with
      | (none, last) => ⟨[], last, true⟩
      | (some further, last) => ⟨fold (breakText (first behind)) further, last, true⟩
  else ⟨text spaces, behind, false⟩

/-- A plain phrase with at most a count of parts between gaps. Outside of brackets
its further lines stand at a least column. -/
def plainParts (inBrackets : Bool) (least : Int) : (count : Nat) → Source → Phrase
  | 0, source => ⟨[], source, false⟩
  | count + 1, source =>
      let word := plainWord inBrackets source
      let gap := plainGap (source.drop word.length)
      let isLast := gap.text = [] ∨ startsWith '#' gap.behind ∨
        (!inBrackets && (place gap.behind).column < least) ∨
        plainWord inBrackets gap.behind = []
      if isLast then ⟨word, gap.behind, gap.endsLine⟩
      else
        let further := plainParts inBrackets least count gap.behind
        { further with text := word ++ gap.text ++ further.text }

/-- The plain phrase that starts here. -/
def plain (inBrackets : Bool) (least : Int) (source : Source) : Phrase :=
  plainParts inBrackets least source.length source

/-- Characters that start no plain phrase, or only in front of another character. -/
def indicators : List Char :=
  ['-', '?', ':', ',', '[', ']', '{', '}', '#', '&', '*', '!', '|', '>', '\'', '"', '%', '@',
    Char.ofNat 0x60]

/-- Whether a plain phrase starts here. -/
def startsPlain (inBrackets : Bool) (source : Source) : Bool :=
  !isGap (first source) &&
    (first source ∉ indicators ||
      (!isGap (first (source.drop 1)) &&
        (first source == '-' ||
          (!inBrackets && (first source == '?' || first source == ':')))))

/-- Escapes of one character and what they stand for. -/
def escapes : List (Char × Nat) := [
  ('0', 0x0), ('a', 0x7), ('b', 0x8), ('t', 0x9), ('\t', 0x9), ('n', 0xa), ('v', 0xb),
  ('f', 0xc), ('r', 0xd), ('e', 0x1b), (' ', 0x20), ('"', 0x22), ('\\', 0x5c), ('/', 0x2f),
  ('N', 0x85), ('_', 0xa0), ('L', 0x2028), ('P', 0x2029)]

/-- Count of the hexadecimal digits behind an escape. -/
def escapeDigits? : Char → Option Nat
  | 'x' => some 2
  | 'u' => some 4
  | 'U' => some 8
  | _ => none

/-- The code point that a count of hexadecimal digits writes. -/
def hexPoint (count : Nat) (source : Source) : Except Fault Nat :=
  match hexNumber? (text (source.take count)) with
  | none => .error (.token .badEscape)
  | some point =>
      if 0x7fffffff < point then .error .hugeCharacter
      else if 0x10ffff < point then .error .noCharacter
      else .ok point

/-- Ends of lines with blanks between them inside of quotes. -/
def quotedBreaks : (lines : Nat) → Source → Except Fault (Text × Source)
  | 0, source => .ok ([], source)
  | lines + 1, source =>
      if startsMarker source then .error (.token .openQuote)
      else
        let behind := source.dropWhile fun mark => mark.character ∈ [' ', '\t']
        if isBreak (first behind) then do
          let (further, last) ← quotedBreaks lines (behind.drop 1)
          return (breakText (first behind) :: further, last)
        else .ok ([], behind)

/-- Code points up to the next blank or the closing quote. -/
def quotedWord (isDouble : Bool) : (count : Nat) → Source → Except Fault (List Nat × Source)
  | 0, source => .ok ([], source)
  | count + 1, source =>
      let next := source.drop 1
      let add (points : List Nat) (behind : Source) : Except Fault (List Nat × Source) := do
        let (further, last) ← quotedWord isDouble count behind
        return (points ++ further, last)
      if isGap (first source) then .ok ([], source)
      else if first source == '\'' && !isDouble then
        if startsWith '\'' next then add ['\''.toNat] (next.drop 1) else .ok ([], source)
      else if first source == '"' && isDouble then .ok ([], source)
      else if first source == '\\' && isDouble then
        match escapes.find? (·.1 == first next), escapeDigits? (first next) with
        | some escape, _ => add [escape.2] (next.drop 1)
        | none, some digits => do
            let point ← hexPoint digits (next.drop 1)
            add [point] (next.drop (digits + 1))
        | none, none =>
            if isBreak (first next) then do
              let (breaks, behind) ← quotedBreaks next.length (next.drop 1)
              add (breaks.map Char.toNat) behind
            else .error (.token .badEscape)
      else add [(first source).toNat] next

/-- What blanks and ends of lines inside of quotes become. -/
def quotedGap (source : Source) : Except Fault (Text × Source) :=
  let blanks := source.takeWhile fun mark => mark.character ∈ [' ', '\t']
  let behind := source.drop blanks.length
  if first behind == ending then .error (.token .openQuote)
  else if isBreak (first behind) then do
    let (further, last) ← quotedBreaks behind.length (behind.drop 1)
    return (fold (breakText (first behind)) further, last)
  else .ok (text blanks, behind)

/-- Code points up to the closing quote, and the source behind it. -/
def quotedParts (isDouble : Bool) : (count : Nat) → Source → Except Fault (List Nat × Source)
  | 0, _ => .error (.token .openQuote)
  | count + 1, source => do
      let (word, behind) ← quotedWord isDouble source.length source
      if first behind == (if isDouble then '"' else '\'') then return (word, behind.drop 1)
      else
        let (gap, next) ← quotedGap behind
        let (further, last) ← quotedParts isDouble count next
        return (word ++ gap.map Char.toNat ++ further, last)

/-- The text of code points. A character may be written by its two surrogates. -/
def ofPoints : List Nat → Text
  | high :: low :: rest =>
      if 0xd800 ≤ high ∧ high < 0xdc00 ∧ 0xdc00 ≤ low ∧ low < 0xe000 then
        Char.ofNat (0x10000 + (high - 0xd800) * 0x400 + (low - 0xdc00)) :: ofPoints rest
      else ofPoint high :: ofPoints (low :: rest)
  | [point] => [ofPoint point]
  | [] => []
where
  ofPoint (point : Nat) : Char :=
    if 0xd800 ≤ point ∧ point < 0xe000 then Char.ofNat 0xfffd else Char.ofNat point

/-- The quoted phrase that starts here with its quote. -/
def quoted (source : Source) : Except Fault Phrase := do
  let (points, behind) ← quotedParts (startsWith '"' source) source.length (source.drop 1)
  return ⟨ofPoints points, behind, false⟩

end Source
end Yaml
end Joinery
