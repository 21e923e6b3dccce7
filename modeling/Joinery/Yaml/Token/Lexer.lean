import Joinery.Yaml.Token

/-!
# Splitting into tokens

A key is seen to be one only at the colon behind it. So a token that may be a key is
kept back, together with all tokens behind it, until a colon comes, its line ends,
or it gets too long. Only then do the tokens go out, with a token for the key in
front of it if it is one. What is wrong with a source shows at the first token that
cannot go out for it.
-/

namespace Joinery
namespace Yaml

/-- A token that may turn out to be a key. -/
structure PossibleKey where
  /-- Depth of the brackets around it. -/
  depth : Int
  /-- Count of the tokens before it. -/
  number : Nat
  /-- Whether it stands where only a key can stand. -/
  isRequired : Bool
  place : Mark
  deriving DecidableEq

/-- A source that is partly split into tokens. -/
structure Lexer where
  source : Source
  /-- Tokens that are kept back, the oldest first. -/
  tokens : List Token
  /-- Count of the tokens that went out. -/
  taken : Nat
  /-- Column of the innermost block. -/
  indent : Int
  /-- Columns of the blocks around it. -/
  outer : List Int
  /-- Depth of the brackets. A closing bracket too many makes it negative. -/
  depth : Int
  /-- Whether a key can start here. -/
  allowsKey : Bool
  keys : List PossibleKey
  /-- Whether the source ended. -/
  isFinished : Bool

namespace Lexer

open Source

/-- The start of a source. -/
def start (source : Source) : Lexer := ⟨source, [], 0, -1, [], 0, true, [], false⟩

/-- Whether there are brackets around. -/
def inBrackets (lexer : Lexer) : Bool := lexer.depth != 0

/-- Column of the next character. -/
def column (lexer : Lexer) : Int := (place lexer.source).column

/-- The lexer with one more token. -/
def push (token : Token) (lexer : Lexer) : Lexer :=
  { lexer with tokens := lexer.tokens ++ [token] }

/-- The lexer behind some characters. -/
def skip (count : Nat) (lexer : Lexer) : Lexer :=
  { lexer with source := lexer.source.drop count }

/-- Length that no key exceeds. -/
def keyLimit : Nat := 1024

/-- Whether a possible key is none because its line ended or it got too long. -/
def isStale (place : Mark) (key : PossibleKey) : Bool :=
  key.place.line != place.line || key.place.index + keyLimit < place.index

/-- Drops possible keys of one kind, none of which may be required. -/
def dropKeys (drops : PossibleKey → Bool) (lexer : Lexer) : Except Fault Lexer :=
  if lexer.keys.any fun key => drops key && key.isRequired then .error (.token .missingColon)
  else .ok { lexer with keys := lexer.keys.filter (!drops ·) }

/-- Drops possible keys that turned out to be none. -/
def dropStale (lexer : Lexer) : Except Fault Lexer :=
  lexer.dropKeys (isStale (place lexer.source))

/-- Drops the possible key at the depth of the brackets. -/
def dropKey (lexer : Lexer) : Except Fault Lexer := lexer.dropKeys (·.depth == lexer.depth)

/-- Notes that the next token may be a key, if one can start here. -/
def noteKey (lexer : Lexer) : Except Fault Lexer :=
  if !lexer.allowsKey then .ok lexer
  else do
    let lexer ← lexer.dropKey
    let key := ⟨lexer.depth, lexer.taken + lexer.tokens.length,
      !lexer.inBrackets && lexer.indent == lexer.column, (place lexer.source)⟩
    return { lexer with keys := key :: lexer.keys }

/-- Ends the blocks to the right of a column. -/
def unwindTo (column : Int) : (indent : Int) → (outer : List Int) → Lexer → Lexer
  | indent, [], lexer => { lexer with indent := indent, outer := [] }
  | indent, around :: outer, lexer =>
      if column < indent then unwindTo column around outer (lexer.push .blockEnd)
      else { lexer with indent := indent, outer := around :: outer }

/-- Ends the blocks to the right of a column, unless there are brackets around. -/
def unwind (column : Int) (lexer : Lexer) : Lexer :=
  if lexer.inBrackets then lexer else unwindTo column lexer.indent lexer.outer lexer

/-- Starts a block at a column, if it is to the right of the innermost one. -/
def startBlock (token : Token) (lexer : Lexer) : Lexer :=
  if lexer.indent < lexer.column then
    { lexer.push token with indent := lexer.column, outer := lexer.indent :: lexer.outer }
  else lexer

/-- The source behind blanks, ends of lines and comments, and whether a line
ended. -/
def skipLines : (count : Nat) → Source → Bool × Source
  | 0, source => (false, source)
  | count + 1, source =>
      let behind := skipComment (skipSpaces source)
      if isBreak (first behind) then (true, (skipLines count (behind.drop 1)).2)
      else (false, behind)

/-- Goes on to the next token. Behind the end of a line a key can start, unless there
are brackets around. -/
def skipGap (lexer : Lexer) : Lexer :=
  let (endsLine, source) := skipLines lexer.source.length lexer.source
  { lexer with
    source := source
    allowsKey := lexer.allowsKey || (endsLine && !lexer.inBrackets) }

/-- The end of the source. -/
def finish (lexer : Lexer) : Except Fault Lexer := do
  let lexer ← (lexer.unwind (-1)).dropKey
  return { lexer.push .ending with allowsKey := false, keys := [], isFinished := true }

/-- A token in front of or behind a document, and the source behind it. -/
def boundary (token : Token) (source : Source) (lexer : Lexer) : Except Fault Lexer := do
  let lexer ← (lexer.unwind (-1)).dropKey
  return { lexer.push token with source := source, allowsKey := false }

/-- A directive. -/
def directiveToken (lexer : Lexer) : Except Fault Lexer := do
  let ready ← (lexer.unwind (-1)).dropKey
  let (directive, behind) ← Source.directive lexer.source
  return { ready.push (.directive directive) with source := behind, allowsKey := false }

/-- An opening bracket. -/
def openBracket (token : Token) (lexer : Lexer) : Except Fault Lexer := do
  let lexer ← lexer.noteKey
  return { (lexer.push token).skip 1 with depth := lexer.depth + 1, allowsKey := true }

/-- A closing bracket. -/
def closeBracket (token : Token) (lexer : Lexer) : Except Fault Lexer := do
  let lexer ← lexer.dropKey
  return { (lexer.push token).skip 1 with depth := lexer.depth - 1, allowsKey := false }

/-- A comma between the parts of a collection in brackets. -/
def comma (lexer : Lexer) : Except Fault Lexer := do
  let lexer ← lexer.dropKey
  return { (lexer.push .comma).skip 1 with allowsKey := true }

/-- The hyphen in front of an item. -/
def item (lexer : Lexer) : Except Fault Lexer := do
  if !lexer.inBrackets && !lexer.allowsKey then throw (.token .strayItem)
  let lexer := if lexer.inBrackets then lexer else lexer.startBlock .blockSequenceStart
  let lexer ← lexer.dropKey
  return { (lexer.push .item).skip 1 with allowsKey := true }

/-- The question mark in front of a key. -/
def explicitKey (lexer : Lexer) : Except Fault Lexer := do
  if !lexer.inBrackets && !lexer.allowsKey then throw (.token .strayKey)
  let lexer := if lexer.inBrackets then lexer else lexer.startBlock .blockMappingStart
  let lexer ← lexer.dropKey
  return { (lexer.push .key).skip 1 with allowsKey := !lexer.inBrackets }

/-- Turns a possible key into a key. -/
def insertKey (key : PossibleKey) (lexer : Lexer) : Lexer :=
  let startsBlock := !lexer.inBrackets && lexer.indent < key.place.column
  let column : Int := key.place.column
  let (before, behind) := lexer.tokens.splitAt (key.number - lexer.taken)
  let tokens := (if startsBlock then [.blockMappingStart] else []) ++ [.key]
  { lexer with
    tokens := before ++ tokens ++ behind
    keys := lexer.keys.filter (·.depth != lexer.depth)
    indent := if startsBlock then column else lexer.indent
    outer := if startsBlock then lexer.indent :: lexer.outer else lexer.outer
    allowsKey := false }

/-- The colon behind a key. -/
def colon (lexer : Lexer) : Except Fault Lexer := do
  let lexer ← match lexer.keys.find? (·.depth == lexer.depth) with
    | some key => pure (lexer.insertKey key)
    | none => do
        if !lexer.inBrackets && !lexer.allowsKey then throw (.token .strayColon)
        let lexer := if lexer.inBrackets then lexer else lexer.startBlock .blockMappingStart
        ({ lexer with allowsKey := !lexer.inBrackets } : Lexer).dropKey
  return (lexer.push .value).skip 1

/-- A token that may be a key, and the source behind it. -/
def node (read : Source → Except Fault (Token × Source)) (lexer : Lexer) :
    Except Fault Lexer := do
  let lexer ← lexer.noteKey
  let (token, behind) ← read lexer.source
  return { lexer.push token with source := behind, allowsKey := false }

/-- A paragraph. -/
def paragraph (lexer : Lexer) : Except Fault Lexer := do
  let lexer ← lexer.dropKey
  let phrase ← Source.paragraph lexer.indent lexer.source
  return { lexer.push (.scalar phrase.text false) with source := phrase.behind, allowsKey := true }

/-- A plain phrase. A key can start behind it if a line ends there. -/
def plain (lexer : Lexer) : Except Fault Lexer := do
  let lexer ← lexer.noteKey
  let phrase := Source.plain lexer.inBrackets (lexer.indent + 1) lexer.source
  return { lexer.push (.scalar phrase.text true) with
    source := phrase.behind, allowsKey := phrase.endsLine }

/-- Splits off the token that starts with the next character. -/
def readToken (lexer : Lexer) : Except Fault Lexer :=
  let source := lexer.source
  let behind := source.drop 1
  let atStart := (place source).column == 0
  let inBrackets := lexer.inBrackets
  let standsAlone := inBrackets || isGap (first behind)
  match (first source) with
  | '[' => lexer.openBracket .sequenceStart
  | '{' => lexer.openBracket .mappingStart
  | ']' => lexer.closeBracket .sequenceEnd
  | '}' => lexer.closeBracket .mappingEnd
  | ',' => lexer.comma
  | '*' => lexer.node fun source => do
      let (name, behind) ← Source.anchor (source.drop 1)
      return (.alias name, behind)
  | '&' => lexer.node fun source => do
      let (name, behind) ← Source.anchor (source.drop 1)
      return (.anchor name, behind)
  | '!' => lexer.node fun source => do
      let ((handle, text), behind) ← Source.tag source
      return (.tag handle text, behind)
  | '\'' | '"' => lexer.node fun source => do
      let phrase ← Source.quoted source
      return (.scalar phrase.text false, phrase.behind)
  | character =>
      if character == ending then lexer.finish
      else if character == '%' && atStart then lexer.directiveToken
      else if atStart && startsTriple '-' source then
        lexer.boundary .documentStart (source.drop 3)
      else if atStart && startsTriple '.' source then
        lexer.boundary .documentEnd (source.drop 3)
      else if character == '-' && isGap (first behind) then lexer.item
      else if character == '?' && standsAlone then lexer.explicitKey
      else if character == ':' && standsAlone then lexer.colon
      else if (character == '|' || character == '>') && !inBrackets then lexer.paragraph
      else if startsPlain inBrackets source then lexer.plain
      else .error (.token .strayCharacter)

/-- Goes on to the next token and splits it off. -/
def next (lexer : Lexer) : Except Fault Lexer := do
  let lexer ← lexer.skipGap.dropStale
  (lexer.unwind lexer.column).readToken

/-- Count of the tokens that can go out: those before the first possible key. -/
def readyCount (lexer : Lexer) : Nat :=
  lexer.keys.foldl (fun count key => min count (key.number - lexer.taken)) lexer.tokens.length

/-- The tokens that a lexer gives in a count of steps. -/
def run : (steps : Nat) → Lexer → List Token
  | 0, _ => []
  | steps + 1, lexer =>
      match lexer.next with
      | .error fault => [.broken fault]
      | .ok lexer =>
          if lexer.isFinished then lexer.tokens
          else match lexer.dropStale with
            | .error fault => [.broken fault]
            | .ok lexer =>
                let (ready, kept) := lexer.tokens.splitAt lexer.readyCount
                ready ++ run steps
                  { lexer with tokens := kept, taken := lexer.taken + ready.length }

end Lexer

/-- The tokens of a source. Every step splits off at least one character. -/
def Source.tokens (source : Source) : List Token := Lexer.run source.length (.start source)

end Yaml
end Joinery
