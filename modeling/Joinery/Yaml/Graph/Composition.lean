import Joinery.Yaml.Graph
import Joinery.Yaml.Token.Lexer

/-!
# Building a graph from tokens

Tokens are taken one by one, and every node gets its number when it starts, so that
an alias inside of a collection can stand for the collection. A node of a block may
be missing; it is null then.
-/

namespace Joinery
namespace Yaml

/-- A graph that is partly built. -/
structure Composition where
  /-- Tokens that are still to be taken. -/
  tokens : List Token
  nodes : Array Node
  /-- Names and numbers of nodes, the latest first. -/
  anchors : List (Text × Nat)
  /-- Handles and the starts of the tags with them. -/
  handles : List (Text × Text)

/-- A step of building a graph. -/
abbrev Composing := StateT Composition (Except Fault)

/-- Where a node stands. -/
inductive Place
  | block
  /-- A key or a value of a block, where the items of a sequence need no indent. -/
  | entry
  | bracket
  deriving DecidableEq

/-- What is said of a node in front of it. -/
structure Properties where
  anchor : Option Text
  /-- The tag in full. -/
  tag : Option Text

namespace Composition

/-- Depth that nested collections do not exceed. -/
def nestingLimit : Nat := 488

/-- Handles that need no directive. -/
def commonHandles : List (Text × Text) := [(['!'], ['!']), (['!', '!'], Tag.start)]

/-- The next token. -/
def peek : Composing Token := do
  match (← get).tokens with
  | [] => throw (.node .missingNode)
  | .broken fault :: _ => throw fault
  | token :: _ => return token

/-- Takes the next token. -/
def advance : Composing Unit :=
  modify fun composition => { composition with tokens := composition.tokens.drop 1 }

/-- Whether the next token is one of some tokens. -/
def nextIs (tokens : List Token) : Composing Bool := return (← peek) ∈ tokens

/-- The tag in full of a tag with its handle. -/
def fullTag : Option (Option Text × Text) → Composing (Option Text)
  | none => return none
  | some (none, text) => return some text
  | some (some handle, text) => do
      match (← get).handles.find? (·.1 = handle) with
      | some entry => return some (entry.2 ++ text)
      | none => throw (.node .unknownHandle)

/-- An anchor, if the next token is one. -/
def takeAnchor : Composing (Option Text) := do
  match ← peek with
  | .anchor name => advance; return some name
  | _ => return none

/-- A tag with its handle, if the next token is one. -/
def takeTag : Composing (Option (Option Text × Text)) := do
  match ← peek with
  | .tag handle text => advance; return some (handle, text)
  | _ => return none

/-- The anchor and the tag of a node, in any order. -/
def properties : Composing Properties := do
  match ← takeAnchor with
  | some anchor =>
      let tag ← fullTag (← takeTag)
      return ⟨some anchor, tag⟩
  | none =>
      match ← takeTag with
      | some tag =>
          let anchor ← takeAnchor
          let tag ← fullTag (some tag)
          return ⟨anchor, tag⟩
      | none => return ⟨none, none⟩

/-- The tag of a node, or the one that its form gives if none is said in front of
it. -/
def tagOr (properties : Properties) (form unsaid : Tag) : Tag :=
  match properties.tag with
  | none => unsaid
  | some tag => if tag = ['!'] then form else Tag.ofName tag

/-- Adds a node. -/
def add (properties : Properties) (node : Node) : Composing Nat := do
  let composition ← get
  let number := composition.nodes.size
  if let some name := properties.anchor then
    if composition.anchors.any (·.1 = name) then throw (.graph .repeatedAnchor)
  set { composition with
    nodes := composition.nodes.push node
    anchors := match properties.anchor with
      | some name => (name, number) :: composition.anchors
      | none => composition.anchors }
  return number

/-- Adds a scalar. -/
def addScalar (properties : Properties) (text : Text) (isPlain : Bool) : Composing Nat :=
  let form := Tag.ofForm text
  add properties ⟨tagOr properties form (if isPlain then form else .text), .scalar text⟩

/-- Adds a scalar that is not there. -/
def addMissing : Composing Nat := addScalar ⟨none, none⟩ [] true

/-- Adds a collection and then its parts. -/
def addCollection (properties : Properties) (tag : Tag) (parts : Composing Content) :
    Composing Nat := do
  let tag := tagOr properties tag tag
  let number ← add properties ⟨tag, .sequence []⟩
  let content ← parts
  modify fun composition =>
    { composition with nodes := composition.nodes.setIfInBounds number ⟨tag, content⟩ }
  return number

/-- The node that an alias stands for. -/
def known (name : Text) : Composing Nat := do
  match (← get).anchors.find? (·.1 = name) with
  | some entry => return entry.2
  | none => throw (.graph .unknownAlias)

/-- A node unless one of some tokens comes next, and a missing one otherwise. -/
def unlessNext (tokens : List Token) (node : Composing Nat) : Composing Nat := do
  if ← nextIs tokens then addMissing else node

mutual

/-- The node that starts with the next token. -/
def node : (fuel depth : Nat) → Place → Composing Nat
  | 0, _, _ => throw .tooDeep
  | fuel + 1, depth, place => do
      if nestingLimit < depth then throw .tooDeep
      match ← peek with
      | .alias name => advance; known name
      | _ => do
          let properties ← properties
          match ← peek, place with
          | .item, .entry =>
              addCollection properties .sequence
                (return .sequence (← openItems fuel (depth + 1)))
          | .scalar text isPlain, _ => advance; addScalar properties text isPlain
          | .sequenceStart, _ =>
              addCollection properties .sequence do
                advance
                return .sequence (← bracketItems fuel (depth + 1) true)
          | .mappingStart, _ =>
              addCollection properties .mapping do
                advance
                return .mapping (← bracketEntries fuel (depth + 1) true)
          | .blockSequenceStart, .block | .blockSequenceStart, .entry =>
              addCollection properties .sequence do
                advance
                return .sequence (← blockItems fuel (depth + 1))
          | .blockMappingStart, .block | .blockMappingStart, .entry =>
              addCollection properties .mapping do
                advance
                return .mapping (← blockEntries fuel (depth + 1))
          | _, _ =>
              if properties.anchor.isSome || properties.tag.isSome then
                addScalar properties [] true
              else throw (.node .missingNode)

/-- Items of a block that ends with a token of its own. -/
def blockItems : (fuel depth : Nat) → Composing (List Nat)
  | 0, _ => throw .tooDeep
  | fuel + 1, depth => do
      match ← peek with
      | .item =>
          advance
          let item ← unlessNext [.item, .blockEnd] (node fuel depth .block)
          return item :: (← blockItems fuel depth)
      | .blockEnd => advance; return []
      | _ => throw (.node .openBlock)

/-- Items at the column of the key in front of them. -/
def openItems : (fuel depth : Nat) → Composing (List Nat)
  | 0, _ => throw .tooDeep
  | fuel + 1, depth => do
      match ← peek with
      | .item =>
          advance
          let item ← unlessNext [.item, .key, .value, .blockEnd] (node fuel depth .block)
          return item :: (← openItems fuel depth)
      | _ => return []

/-- The value behind a key. -/
def valueNode (fuel depth : Nat) (place : Place) (ends : List Token) : Composing Nat := do
  match ← peek with
  | .value => advance; unlessNext ends (node fuel depth place)
  | _ => addMissing

/-- Entries of a block. -/
def blockEntries : (fuel depth : Nat) → Composing (List (Nat × Nat))
  | 0, _ => throw .tooDeep
  | fuel + 1, depth => do
      match ← peek with
      | .key =>
          advance
          let ends := [Token.key, .value, .blockEnd]
          let key ← unlessNext ends (node fuel depth .entry)
          let value ← valueNode fuel depth .entry ends
          return (key, value) :: (← blockEntries fuel depth)
      | .blockEnd => advance; return []
      | _ => throw (.node .openBlock)

/-- An entry in brackets up to the next part or the closing bracket. -/
def bracketEntry (fuel depth : Nat) (closing : Token) : Composing (Nat × Nat) := do
  advance
  let key ← unlessNext [.value, .comma, closing] (node fuel depth .bracket)
  let value ← valueNode fuel depth .bracket [.comma, closing]
  return (key, value)

/-- Items up to the closing bracket. A key among them starts a mapping of one
entry. -/
def bracketItems : (fuel depth : Nat) → (isFirst : Bool) → Composing (List Nat)
  | 0, _, _ => throw .tooDeep
  | fuel + 1, depth, isFirst => do
      if ← nextIs [.sequenceEnd] then advance; return []
      if !isFirst then
        if ← nextIs [.comma] then advance else throw (.node .openBracket)
      match ← peek with
      | .sequenceEnd => advance; return []
      | .key =>
          let item ← addCollection ⟨none, none⟩ .mapping do
            return .mapping [← bracketEntry fuel (depth + 1) .sequenceEnd]
          return item :: (← bracketItems fuel depth false)
      | _ =>
          let item ← node fuel depth .bracket
          return item :: (← bracketItems fuel depth false)

/-- Entries up to the closing brace. -/
def bracketEntries : (fuel depth : Nat) → (isFirst : Bool) → Composing (List (Nat × Nat))
  | 0, _, _ => throw .tooDeep
  | fuel + 1, depth, isFirst => do
      if ← nextIs [.mappingEnd] then advance; return []
      if !isFirst then
        if ← nextIs [.comma] then advance else throw (.node .openBracket)
      match ← peek with
      | .mappingEnd => advance; return []
      | .key =>
          let entry ← bracketEntry fuel depth .mappingEnd
          return entry :: (← bracketEntries fuel depth false)
      | _ =>
          let key ← node fuel depth .bracket
          let value ← addMissing
          return (key, value) :: (← bracketEntries fuel depth false)

end

/-- Takes the directives in front of a document. -/
def directives : (fuel : Nat) → (hasVersion : Bool) → Composing Unit
  | 0, _ => throw (.node .missingStart)
  | fuel + 1, hasVersion => do
      match ← peek with
      | .directive (.version major) =>
          if hasVersion then throw (.node .repeatedDirective)
          if major ≠ 1 then throw (.node .unknownVersion)
          advance
          directives fuel true
      | .directive (.handle name start) =>
          let composition ← get
          if composition.handles.any (·.1 = name) then throw (.node .repeatedDirective)
          set { composition with handles := (name, start) :: composition.handles }
          advance
          directives fuel hasVersion
      | .directive .other => advance; directives fuel hasVersion
      | .documentStart =>
          modify fun composition =>
            { composition with handles := composition.handles ++ commonHandles }
          advance
      | _ => throw (.node .missingStart)

/-- The root of the first document, which is null if there is none. -/
def root (fuel : Nat) : Composing Nat := do
  match ← peek with
  | .ending => addMissing
  | .directive _ | .documentStart =>
      directives fuel false
      match ← peek with
      | .directive _ | .documentStart | .documentEnd | .ending => addMissing
      | _ => node fuel 0 .block
  | _ =>
      modify fun composition => { composition with handles := commonHandles }
      node fuel 0 .block

/-- Takes the tokens behind the first document, among which no other one starts. -/
def finish : (fuel : Nat) → Composing Unit
  | 0 => throw (.node .missingStart)
  | fuel + 1 => do
      match ← peek with
      | .documentEnd => advance; finish fuel
      | .ending => return
      | _ =>
          modify fun composition => { composition with handles := [] }
          directives fuel false
          throw (.graph .secondDocument)

/-- Builds the graph of tokens. Not more than a few steps are taken for a token. -/
def graph (tokens : List Token) : Except Fault Graph := do
  let fuel := 4 * tokens.length + 8
  let step : Composing Nat := do
    let root ← root fuel
    finish fuel
    return root
  let (root, composition) ← step.run ⟨tokens, #[], [], []⟩
  return ⟨composition.nodes, root⟩

end Composition

/-- The graph of the one document in a text. -/
def Graph.ofText (text : Text) : Except Fault Graph := do
  Composition.graph (← Source.ofText text).tokens

end Yaml
end Joinery
