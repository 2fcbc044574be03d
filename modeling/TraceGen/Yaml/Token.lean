/-!
# Tokens of YAML

A YAML text is cut into tokens: markers of documents, directives, node properties, scalars with
their text already unfolded, the punctuation of flow collections, and the starts and ends of block
collections, which have no characters of their own but follow from the indentation.
-/

namespace TraceGen.Yaml

/-- The pieces of a YAML text. -/
inductive Token where
  | streamEnd
  | version (major minor : Nat)
  | tagHandle (handle start : String)
  | documentStart
  | documentEnd
  | blockSequenceStart
  | blockMappingStart
  | blockEnd
  | flowSequenceStart
  | flowSequenceEnd
  | flowMappingStart
  | flowMappingEnd
  | blockEntry
  | flowEntry
  | key
  | value
  | alias (name : String)
  | anchor (name : String)
  | tag (handle suffix : String)
  | scalar (text : String) (isPlain : Bool)
deriving DecidableEq, Repr

end TraceGen.Yaml
