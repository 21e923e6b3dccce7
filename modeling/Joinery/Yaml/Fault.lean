/-!
# Faults of YAML documents

A text is split into tokens, the tokens make up a graph of nodes, and the nodes
stand for values. Each of these steps has faults of its own. The tokens are split
off while the graph is built, so of two faults the one further to the front counts.
The values are built when the graph is complete.
-/

namespace Joinery
namespace Yaml

/-- What keeps a text from being split into tokens. -/
inductive TokenFault
  /-- A character that starts no token. -/
  | strayCharacter
  /-- A quoted text without an end. -/
  | openQuote
  /-- An unknown escape in a quoted text. -/
  | badEscape
  /-- A key without a colon. -/
  | missingColon
  /-- An item of a block where none can start. -/
  | strayItem
  /-- A key of a block where none can start. -/
  | strayKey
  /-- A colon behind something that is no key. -/
  | strayColon
  | badDirective
  | badAnchor
  | badTag
  /-- Something else than the options of a block of lines in its first line. -/
  | badBlockHeader
  deriving DecidableEq

/-- What keeps tokens from making up nodes. -/
inductive NodeFault
  /-- A token where a node is expected. -/
  | missingNode
  /-- A token that neither continues nor ends a block. -/
  | openBlock
  /-- A token that neither continues nor ends a collection in brackets. -/
  | openBracket
  /-- A version other than the first. -/
  | unknownVersion
  /-- A second version, or a second meaning of a handle. -/
  | repeatedDirective
  /-- A tag whose handle has no meaning. -/
  | unknownHandle
  /-- Something between documents that starts none. -/
  | missingStart
  deriving DecidableEq

/-- What keeps nodes from making up one graph. -/
inductive GraphFault
  /-- An alias without an anchor before it. -/
  | unknownAlias
  /-- A second anchor of one name. -/
  | repeatedAnchor
  | secondDocument
  deriving DecidableEq

/-- What keeps a node from standing for a value. -/
inductive ShapeFault
  | unknownTag
  /-- A collection where a scalar is expected. -/
  | notAScalar
  | notASequence
  | notAMapping
  /-- A key that is a collection. -/
  | collectionKey
  /-- A merge of something else than mappings. -/
  | notMergeable
  /-- An item of an ordered mapping that is not one entry. -/
  | notAPair
  /-- A text of bytes that is not written in base 64. -/
  | notBase64
  deriving DecidableEq

/-- What keeps a scalar from having the value that its tag promises. -/
inductive ScalarFault
  | notANumber
  /-- A number of no characters. -/
  | emptyNumber
  /-- A part of a number in base sixty is of no finite place. -/
  | tooLarge
  | notATruth
  | notADate
  /-- A date that no calendar has. -/
  | impossibleDate
  /-- A collection that stands for a date. -/
  | collectionDate
  deriving DecidableEq

/-- What is wrong with a document. -/
inductive Fault
  /-- A character that no document may hold. -/
  | unprintable
  | token (fault : TokenFault)
  /-- An escape for a character behind the last one. -/
  | noCharacter
  /-- An escape for a character of more than 31 bits. -/
  | hugeCharacter
  | node (fault : NodeFault)
  | graph (fault : GraphFault)
  /-- Collections that are nested too deeply. -/
  | tooDeep
  | shape (fault : ShapeFault)
  | scalar (fault : ScalarFault)
  deriving DecidableEq

end Yaml
end Joinery
