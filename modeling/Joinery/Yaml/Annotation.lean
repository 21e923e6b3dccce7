import Joinery.Yaml.Source

/-!
# Annotations of YAML documents

An anchor gives a node a name, and an alias stands for the node with a name. A tag
says what a node is; it is written in full, or by a handle and what follows it.
Directives in front of a document say what handles mean.
-/

namespace Joinery
namespace Yaml

/-- What stands in front of a document. -/
inductive Directive
  /-- The version of the language. -/
  | version (major : Nat)
  /-- The start of all tags with a handle. -/
  | handle (name start : Text)
  /-- Anything else, which says nothing. -/
  | other
  deriving DecidableEq

namespace Source

/-- A letter or digit of ASCII, a hyphen or a low line. -/
def isNameCharacter (character : Char) : Bool :=
  character.isAlphanum || character == '-' || character == '_'

/-- The name that starts here. -/
def name (source : Source) : Text :=
  text (source.takeWhile (isNameCharacter ·.character))

/-- The name of an anchor or alias behind its indicator. -/
def anchor (source : Source) : Except Fault (Text × Source) :=
  let behind := source.drop (name source).length
  if (name source) = [] ∨
      !(isGap (first behind) ||
        first behind ∈ ['?', ':', ',', ']', '}', '%', '@', Char.ofNat 0x60]) then
    .error (.token .badAnchor)
  else .ok ((name source), behind)

/-- A character that may stand in a tag. -/
def isTagCharacter (character : Char) : Bool :=
  character.isAlphanum ||
    character ∈ ['-', ';', '/', '?', ':', '@', '&', '=', '+', '$', ',', '_', '.', '!', '~',
      '*', '\'', '(', ')', '[', ']', '%']

/-- Bytes that are written by percent signs with two hexadecimal digits each. -/
def escapedBytes (fault : Fault) : (count : Nat) → Source → Except Fault (List Nat × Source)
  | 0, source => .ok ([], source)
  | count + 1, source =>
      if !startsWith '%' source then .ok ([], source)
      else match hexNumber? (text ((source.drop 1).take 2)) with
        | none => .error fault
        | some byte => do
            let (bytes, behind) ← escapedBytes fault count (source.drop 3)
            return (byte :: bytes, behind)

/-- The text of bytes in UTF-8. -/
def ofBytes? (bytes : List Nat) : Option Text :=
  (String.fromUTF8? ⟨(bytes.map Nat.toUInt8).toArray⟩).map String.toList

/-- The characters of a tag from here on. -/
def tagParts (fault : Fault) : (count : Nat) → Source → Except Fault (Text × Source)
  | 0, source => .ok ([], source)
  | count + 1, source =>
      if startsWith '%' source then do
        let (bytes, behind) ← escapedBytes fault source.length source
        let some part := ofBytes? bytes | throw fault
        let (further, last) ← tagParts fault count behind
        return (part ++ further, last)
      else if isTagCharacter (first source) then do
        let (further, last) ← tagParts fault count (source.drop 1)
        return (first source :: further, last)
      else .ok ([], source)

/-- The characters of a tag, of which there is at least one. -/
def tagText (fault : Fault) (source : Source) : Except Fault (Text × Source) :=
  if isTagCharacter (first source) then tagParts fault source.length source else .error fault

/-- A handle: exclamation marks around a name, or a single one in front of a space. -/
def handle (fault : Fault) (source : Source) : Except Fault (Text × Source) :=
  let behind := source.drop 1
  let last := behind.drop (name behind).length
  if !startsWith '!' source then .error fault
  else if startsWith ' ' behind then .ok (['!'], behind)
  else if startsWith '!' last then .ok ('!' :: (name behind) ++ ['!'], last.drop 1)
  else .error fault

/-- Whether a tag starts with a handle of two exclamation marks. -/
def hasHandle (source : Source) : Bool :=
  let word := (source.drop 1).takeWhile (!endsWord ·.character)
  word.any (·.character == '!')

/-- A tag with its handle, unless it is written in full or is a lone exclamation
mark. -/
def tag (source : Source) : Except Fault ((Option Text × Text) × Source) := do
  let fault : Fault := .token .badTag
  let next := source.drop 1
  let (tag, behind) ←
    if startsWith '<' next then do
      let (text, behind) ← tagText fault (next.drop 1)
      if !startsWith '>' behind then throw fault
      pure ((none, text), behind.drop 1)
    else if isGap (first next) then pure ((none, ['!']), next)
    else do
      let (handle, behind) ←
        if hasHandle source then handle fault source else pure (['!'], next)
      let (text, last) ← tagText fault behind
      pure ((some handle, text), last)
  if endsWord (first behind) then return (tag, behind) else throw fault

/-- A number with decimal digits of ASCII. -/
def digits (fault : Fault) (source : Source) : Except Fault (Nat × Source) :=
  let digits := text (source.takeWhile (·.character.isDigit))
  if digits = [] then .error fault
  else .ok (digits.foldl (fun value digit => 10 * value + (digit.toNat - 48)) 0,
    source.drop digits.length)

/-- A version: two numbers with a point between them. -/
def version (fault : Fault) (source : Source) : Except Fault (Directive × Source) := do
  let (major, behind) ← digits fault (skipSpaces source)
  if !startsWith '.' behind then throw fault
  let (_, last) ← digits fault (behind.drop 1)
  if endsWord (first last) then return (.version major, last) else throw fault

/-- A handle and the start of its tags. -/
def handleStart (fault : Fault) (source : Source) : Except Fault (Directive × Source) := do
  let (name, behind) ← handle fault (skipSpaces source)
  if !startsWith ' ' behind then throw fault
  let (start, last) ← tagText fault (skipSpaces behind)
  if endsWord (first last) then return (.handle name start, last) else throw fault

/-- The directive that starts here with its indicator, and the source behind its
line. -/
def directive (source : Source) : Except Fault (Directive × Source) := do
  let fault : Fault := .token .badDirective
  let word := name (source.drop 1)
  let behind := source.drop (word.length + 1)
  if word = [] ∨ !endsWord (first behind) then throw fault
  let (directive, last) ←
    if word = "YAML".toList then version fault behind
    else if word = "TAG".toList then handleStart fault behind
    else pure (.other, behind.dropWhile (!endsLine ·.character))
  match skipLine? last with
  | some next => return (directive, next)
  | none => throw fault

end Source
end Yaml
end Joinery
