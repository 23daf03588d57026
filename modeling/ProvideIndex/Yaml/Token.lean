import ProvideIndex.Yaml.Node

/-!
# Tokens

The pieces that a stream is cut into. The end of the stream is the end of the token list.
-/

namespace ProvideIndex.Yaml

inductive Token where
  | version (major minor : Nat)
  | tagHandle (handle : List Char) (fullForm : List UInt8)
  | documentStart
  | documentEnd
  | blockSequenceStart
  | blockMappingStart
  | blockEnd
  | flowSequenceStart
  | flowSequenceEnd
  | flowMappingStart
  | flowMappingEnd
  | blockEntry
  | flowEntry
  | key
  | value
  | reference (name : List Char)
  | anchor (name : List Char)
  | tag (handle : List Char) (suffix : List UInt8)
  | scalar (text : List Char) (style : Style)
  deriving DecidableEq, Repr

end ProvideIndex.Yaml
