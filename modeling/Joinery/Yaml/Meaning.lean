import Joinery.Text.Base64
import Joinery.Yaml.Graph.Composition
import Joinery.Yaml.Value

/-!
# What the nodes of a YAML document stand for

The tag of a node says how its value is found. A scalar gets its value at once. A
collection is begun first, and filled when all collections that were begun before
it are filled. So the fault that is nearest to the root counts, and a collection can
be a part of itself. In a mapping, the entries of merged mappings stand in front of
its own, and the last entry of a key counts.
-/

namespace Joinery
namespace Yaml

/-- An entry of a mapping: the numbers of its key and its value. -/
abbrev Entry := Nat × Nat

namespace Graph

/-- Entries of a node that is a mapping. -/
def entries (graph : Graph) (number : Nat) : List Entry :=
  match (graph.node number).content with
  | .mapping entries => entries
  | _ => []

/-- The graph with other entries of a mapping. -/
def setEntries (number : Nat) (entries : List Entry) (graph : Graph) : Graph :=
  graph.setNode number { graph.node number with content := .mapping entries }

/-- Merges some mappings, each of which is flattened first. Their entries come out
in lists of their own. -/
def mergeMappings (flatten : Graph → Nat → Except Fault Graph) :
    List Nat → Graph → Except Fault (List (List Entry) × Graph)
  | [], graph => .ok ([], graph)
  | number :: rest, graph =>
      match (graph.node number).content with
      | .mapping _ => do
          let graph ← flatten graph number
          let (others, last) ← mergeMappings flatten rest graph
          return (graph.entries number :: others, last)
      | _ => .error (.shape .notMergeable)

/-- The mappings that are merged for the value of a merge key. -/
def mergedNumbers (graph : Graph) (number : Nat) : Except Fault (List Nat) :=
  match (graph.node number).content with
  | .mapping _ => .ok [number]
  | .sequence items => .ok items
  | .scalar _ => .error (.shape .notMergeable)

/-- Flattens the entries of a mapping from the first of `rest` on. -/
def flattenEntries (flatten : Graph → Nat → Except Fault Graph) (number : Nat) :
    (merged kept rest : List Entry) → Graph → Except Fault Graph
  | merged, kept, [], graph => .ok (graph.setEntries number (merged ++ kept))
  | merged, kept, (key, value) :: rest, graph =>
      match (graph.node key).tag with
      | .merge => do
          let graph := graph.setEntries number (kept ++ rest)
          let sources ← graph.mergedNumbers value
          let (entries, graph) ← mergeMappings flatten sources graph
          flattenEntries flatten number (merged ++ entries.reverse.flatten) kept rest graph
      | .standIn =>
          let graph := graph.setNode key { graph.node key with tag := .text }
          flattenEntries flatten number merged (kept ++ [(key, value)]) rest graph
      | _ => flattenEntries flatten number merged (kept ++ [(key, value)]) rest graph

/-- Replaces merge keys of a mapping by the entries of what they merge. -/
def flattenWith : (fuel : Nat) → Graph → Nat → Except Fault Graph
  | 0, graph, _ => .ok graph
  | fuel + 1, graph, number =>
      flattenEntries (flattenWith fuel) number [] [] (graph.entries number) graph

/-- Replaces merge keys of a mapping. Mappings are merged at most as deeply as there
are nodes. -/
def flatten (graph : Graph) (number : Nat) : Except Fault Graph :=
  flattenWith (2 * graph.nodes.size + 2) graph number

/-- The text of a scalar, or of the value that stands for a mapping. -/
def scalarTextWith (graph : Graph) : (fuel : Nat) → Nat → Except Fault Text
  | 0, _ => .error .tooDeep
  | fuel + 1, number =>
      match (graph.node number).content with
      | .scalar text => .ok text
      | .sequence _ => .error (.shape .notAScalar)
      | .mapping entries =>
          match entries.find? fun entry => (graph.node entry.1).tag == .standIn with
          | some entry => scalarTextWith graph fuel entry.2
          | none => .error (.shape .notAScalar)

/-- The text of a scalar, or of the value that stands for a mapping. -/
def scalarText (graph : Graph) (number : Nat) : Except Fault Text :=
  scalarTextWith graph (graph.nodes.size + 1) number

end Graph

namespace Value

/-- The truth value that a word stands for. -/
def ofTruthWord (text : Text) : Except Fault Value :=
  match String.ofList (Text.lower text) with
  | "yes" | "true" | "on" => .ok (.truth true)
  | "no" | "false" | "off" => .ok (.truth false)
  | _ => .error (.scalar .notATruth)

/-- The bytes that a text writes. -/
def ofBase64 (text : Text) : Except Fault Value :=
  if text.all (·.toNat < 128) then
    match Text.base64Bytes? text with
    | some values => .ok (.bytes values)
    | none => .error (.shape .notBase64)
  else .error (.shape .notBase64)

/-- The date or moment that a text writes. -/
def ofTimestamp (text : Text) : Except Fault Value :=
  match Timestamp.read? (Tag.dropFinalBreak text) with
  | some (.date day _) =>
      if day.isPossible then .ok (.date day) else .error (.scalar .impossibleDate)
  | some (.moment time) =>
      if time.isPossible then .ok (.moment time) else .error (.scalar .impossibleDate)
  | none => .error (.scalar .notADate)

/-- The value of a scalar with a tag. -/
def ofScalar (content : Content) (text : Text) : Tag → Except Fault Value
  | .null => .ok .null
  | .truth => ofTruthWord text
  | .integer => return .integer (← Numeral.integer text)
  | .number => return .number (← Numeral.number text)
  | .bytes => ofBase64 text
  | .timestamp =>
      match content with
      | .scalar _ => ofTimestamp text
      | _ => .error (.scalar .collectionDate)
  | .text => .ok (.text text)
  | _ => .error (.shape .unknownTag)

/-- The collection of a tag before it is filled. -/
def begun? : Tag → Option Value
  | .sequence => some (.sequence [])
  | .mapping => some (.mapping [])
  | .orderedMapping | .pairs => some (.pairs [])
  | .set => some (.set [])
  | _ => none

end Value

/-- A document whose values are partly found. -/
structure Construction where
  graph : Graph
  /-- Values by the numbers of their nodes. -/
  values : Array (Option Value)
  /-- Collections that are begun and not filled, the latest first. -/
  begun : List Nat

/-- A step of finding values. -/
abbrev Constructing := StateT Construction (Except Fault)

namespace Construction

/-- Notes the value of a node. -/
def setValue (number : Nat) (value : Value) : Constructing Unit :=
  modify fun construction =>
    { construction with values := construction.values.setIfInBounds number (some value) }

/-- The value of a node that was found. -/
def foundValue (number : Nat) (construction : Construction) : Value :=
  (construction.values.getD number none).getD .null

/-- Finds the value of a node, or begins it. -/
def find (number : Nat) : Constructing Unit := do
  let construction ← get
  if (construction.values.getD number none).isSome then return
  let graph := construction.graph
  let node := graph.node number
  match Value.begun? node.tag with
  | some value =>
      setValue number value
      modify fun construction => { construction with begun := number :: construction.begun }
  | none =>
      if node.tag ∈ [.merge, .standIn, .unknown] then throw (.shape .unknownTag)
      let text ← graph.scalarText number
      setValue number (← Value.ofScalar node.content text node.tag)

/-- Entries with one more. An entry of the same key gives up its value, and its place
stays. -/
def putEntry (construction : Construction) (key value : Nat) (entries : List Entry) :
    List Entry :=
  let isSame (entry : Entry) : Bool :=
    (construction.foundValue entry.1).isSameKey (construction.foundValue key)
  if entries.any isSame then
    entries.map fun entry => if isSame entry then (entry.1, value) else entry
  else entries ++ [(key, value)]

/-- Entries of a mapping, of which no two have the same key. -/
def mappingEntries (number : Nat) : Constructing (List Entry) := do
  match ((← get).graph.node number).content with
  | .mapping _ =>
      let graph ← (← get).graph.flatten number
      modify fun construction => { construction with graph := graph }
      (graph.entries number).foldlM (fun entries (key, value) => do
        find key
        if ((← get).foundValue key).isCollection then throw (.shape .collectionKey)
        find value
        return (← get).putEntry key value entries) []
  | _ => throw (.shape .notAMapping)

/-- The entry that an item of an ordered mapping is. -/
def pairOf (number : Nat) : Constructing Entry := do
  match ((← get).graph.node number).content with
  | .mapping [(key, value)] => find key; find value; return (key, value)
  | _ => throw (.shape .notAPair)

/-- Fills a collection. -/
def fill (number : Nat) : Constructing Unit := do
  match ((← get).graph.node number).tag, ((← get).graph.node number).content with
  | .mapping, _ => setValue number (.mapping (← mappingEntries number))
  | .set, _ => setValue number (.set ((← mappingEntries number).map (·.1)))
  | .sequence, .sequence items =>
      items.forM find
      setValue number (.sequence items)
  | _, .sequence items => setValue number (.pairs (← items.mapM pairOf))
  | _, _ => throw (.shape .notASequence)

/-- Fills the collections that are begun, and then those that are begun while they
are filled. Every round fills at least one. -/
def fillAll : (rounds : Nat) → Constructing Unit
  | 0 => return
  | rounds + 1 => do
      let begun := (← get).begun.reverse
      if begun.isEmpty then return
      modify fun construction => { construction with begun := [] }
      begun.forM fill
      fillAll rounds

/-- The document of a graph. -/
def document (graph : Graph) : Except Fault Document := do
  let step : Constructing Unit := do
    find graph.root
    fillAll (graph.nodes.size + 1)
  let (_, construction) ← step.run ⟨graph, Array.replicate graph.nodes.size none, []⟩
  return ⟨construction.values.map (·.getD .null), graph.root⟩

end Construction

/-- Reads the one document in a text. -/
def read (text : Text) : Except Fault Document := do
  Construction.document (← Graph.ofText text)

/-- The library that the program runs with. -/
def library : Library := ⟨read⟩

end Yaml
end Joinery
