import Joinery.Yaml.Moment
import Joinery.Yaml.Numeral

/-!
# Graphs of YAML documents

A document is a graph of nodes. A node has a tag, and is a scalar, a sequence or a
mapping; parts of collections are given by the numbers of their nodes, because an
alias can make a node a part of several collections, or of itself.
-/

namespace Joinery
namespace Yaml

/-- What a node is. -/
inductive Tag
  | null
  | truth
  | integer
  | number
  | bytes
  | timestamp
  | orderedMapping
  | pairs
  | set
  | text
  | sequence
  | mapping
  /-- The key under which mappings are merged into the one around it. -/
  | merge
  /-- The key of the value that stands for its mapping. -/
  | standIn
  /-- A tag that means nothing. -/
  | unknown
  deriving DecidableEq

namespace Tag

/-- The start of all tags that mean something. -/
def start : Text := "tag:yaml.org,2002:".toList

/-- Tags with their names. -/
def names : List (String × Tag) := [
  ("null", .null), ("bool", .truth), ("int", .integer), ("float", .number), ("binary", .bytes),
  ("timestamp", .timestamp), ("omap", .orderedMapping), ("pairs", .pairs), ("set", .set),
  ("str", .text), ("seq", .sequence), ("map", .mapping), ("merge", .merge),
  ("value", .standIn)]

/-- The tag with a full name. -/
def ofName (name : Text) : Tag :=
  ((names.find? fun entry => start ++ entry.1.toList = name).map (·.2)).getD .unknown

/-- Spellings of null. -/
def nullWords : List String := ["~", "null", "Null", "NULL"]

/-- Spellings of truth and falsehood. -/
def truthWords : List String := [
  "yes", "Yes", "YES", "no", "No", "NO", "true", "True", "TRUE", "false", "False", "FALSE",
  "on", "On", "ON", "off", "Off", "OFF"]

/-- Indicators, which no scalar without quotes is. -/
def indicatorWords : List String := ["!", "&", "*"]

/-- The text without a line feed at its end. -/
def dropFinalBreak (text : Text) : Text :=
  if text.getLast? = some '\n' then text.dropLast else text

/-- The tag of a scalar that is known by its form. -/
def ofForm (text : Text) : Tag :=
  let form := dropFinalBreak text
  let word := String.ofList form
  if text = [] ∨ word ∈ nullWords then .null
  else if word ∈ truthWords then .truth
  else if Numeral.isNumber form then .number
  else if Numeral.isInteger form then .integer
  else if Timestamp.isForm form then .timestamp
  else if word = "<<" then .merge
  else if word = "=" then .standIn
  else if word ∈ indicatorWords then .unknown
  else .text

end Tag

/-- What a node consists of. -/
inductive Content
  | scalar (text : Text)
  | sequence (items : List Nat)
  | mapping (entries : List (Nat × Nat))
  deriving DecidableEq

/-- A node of a document. -/
structure Node where
  tag : Tag
  content : Content
  deriving DecidableEq

/-- The nodes of a document by their numbers. -/
structure Graph where
  nodes : Array Node
  root : Nat

namespace Graph

/-- A node without content. -/
def emptyNode : Node := ⟨.null, .scalar []⟩

/-- The node with a number. -/
def node (graph : Graph) (number : Nat) : Node := graph.nodes.getD number emptyNode

/-- The graph with another node of a number. -/
def setNode (number : Nat) (node : Node) (graph : Graph) : Graph :=
  { graph with nodes := graph.nodes.setIfInBounds number node }

end Graph
end Yaml
end Joinery
