import Joinery.Yaml.Annotation
import Joinery.Yaml.Paragraph

/-!
# Tokens of YAML documents

Tokens are what a document is made of when its blanks, ends of lines and comments
have done their work. Indentation has become tokens for the start and the end of
blocks.
-/

namespace Joinery
namespace Yaml

/-- A part of a document. -/
inductive Token
  | directive (directive : Directive)
  | documentStart
  | documentEnd
  /-- The end of the source. -/
  | ending
  | blockSequenceStart
  | blockMappingStart
  | blockEnd
  | sequenceStart
  | sequenceEnd
  | mappingStart
  | mappingEnd
  /-- The hyphen in front of an item of a block. -/
  | item
  | key
  | value
  | comma
  | alias (name : Text)
  | anchor (name : Text)
  /-- A tag with its handle, if it has one. -/
  | tag (handle : Option Text) (text : Text)
  | scalar (text : Text) (isPlain : Bool)
  /-- The place behind which there are no tokens. -/
  | broken (fault : Fault)
  deriving DecidableEq

end Yaml
end Joinery
